import Quawk.Getline
import Quawk.ObservedRun

namespace quawk

open TracedRun (Traced Allowed Outcome)
open TracedRun.Allowed (loosely)

/-- What a `print` statement does with the output: it asks for the stream, and writes. -/
inductive PrintStep (Val : Type) where
  | opening (target : Option Text)
  | record (text : Option Text)
  | value (value : Val)
  | separator
  | record_separator

/-- The parts of a `print` statement. -/
inductive PrintPart (Val : Type) where
  | argument | target
  | writing (step : PrintStep Val)

def PrintPart.IsWriting {Val : Type} : PrintPart Val → Prop
  | .writing _ => True
  | _ => False

/-- The events of a `print` statement, with the parts they come from. -/
abbrev PrintMark (Val E : Type) : Type := PrintPart Val × Option E

def more_steps {Val : Type} : List Val → List (PrintStep Val)
  | [] => []
  | value :: values => .separator :: .value value :: more_steps values

/-- The values of a line with separators between them. -/
def line_steps {Val : Type} : List Val → List (PrintStep Val)
  | [] => []
  | value :: values => .value value :: more_steps values

/-- The writes that are announced. -/
def written_steps {Val E : Type} (marks : List (PrintMark Val E)) : List (PrintStep Val) :=
  marks.filterMap fun mark =>
    match mark with
    | (.writing step, none) => some step
    | _ => none

section Abstract

variable {S E Val : Type} (same : S → S → Prop) (write : PrintStep Val → Traced S E Unit)

def write_step (step : PrintStep Val) : Traced S (PrintMark Val E) Unit := (write step).announce (.writing step)

/-- The arguments after the first, each after a separator. -/
def more_fragments : List (Traced S E Val) → Traced S (PrintMark Val E) Unit
  | [] => pure ()
  | argument :: rest =>
    write_step write .separator >>= fun _ =>
      argument.mark .argument >>= fun value =>
        write_step write (.value value) >>= fun _ => more_fragments rest

/-- The arguments of a line, each written where it is evaluated. -/
def fragments : List (Traced S E Val) → Traced S (PrintMark Val E) Unit
  | [] => pure ()
  | argument :: rest =>
    argument.mark .argument >>= fun value => write_step write (.value value) >>= fun _ => more_fragments write rest

/-- A line on the standard output, as it is printed. -/
def line_run (arguments : List (Traced S E Val)) : Traced S (PrintMark Val E) Unit :=
  fragments write arguments >>= fun _ => write_step write .record_separator

/-- A redirected line, as it is printed: the target and its stream before the arguments. -/
def redirected_run {Handle : Type} (open_output : Option Text → Traced S E Handle) (target : Traced S E (Option Text))
    (write : Handle → PrintStep Val → Traced S E Unit) (arguments : List (Traced S E Val)) :
    Traced S (PrintMark Val E) Unit :=
  target.mark .target >>= fun name =>
    (open_output name).announce (.writing (.opening name)) >>= fun handle => line_run (write handle) arguments

/-- All arguments, from left to right. -/
def evaluate_all : List (Traced S E Val) → Allowed S (PrintMark Val E) (List Val)
  | [] => pure []
  | argument :: rest =>
    loosely same (argument.mark .argument) >>= fun value => evaluate_all rest >>= fun values => pure (value :: values)

def write_all : List (PrintStep Val) → Allowed S (PrintMark Val E) Unit
  | [] => pure ()
  | step :: rest => loosely same (write_step write step) >>= fun _ => write_all rest

/-- A redirected line: all arguments, then the target and its stream, and then what is written. -/
def unit_redirected {Handle : Type} (open_output : Option Text → Traced S E Handle)
    (target : Traced S E (Option Text)) (write : Handle → PrintStep Val → Traced S E Unit)
    (arguments : List (Traced S E Val)) : Allowed S (PrintMark Val E) Unit :=
  evaluate_all same arguments >>= fun values =>
    loosely same (target.mark .target) >>= fun name =>
      loosely same ((open_output name).announce (.writing (.opening name))) >>= fun handle =>
        write_all same (write handle) (line_steps values ++ [.record_separator])

/-- A line on the standard output: all arguments, and then what is written. -/
def unit_line (arguments : List (Traced S E Val)) : Allowed S (PrintMark Val E) Unit :=
  evaluate_all same arguments >>= fun values => write_all same write (line_steps values ++ [.record_separator])

/-- The runs end with these values and without events, in states like this one. -/
def ArgumentsGive : List (Traced S E Val) → S → List Val → Prop
  | [], _, values => values = []
  | argument :: rest, state, values => ∃ start value others, same state start ∧
      (argument start).result = .value value ∧ (argument start).events = [] ∧ ArgumentsGive rest state others ∧
      values = value :: others

/-- The runs end with these values and without events where the line evaluates them. -/
def MoreGive : List (Traced S E Val) → S → List Val → Prop
  | [], _, values => values = []
  | argument :: rest, state, values => ∃ value others,
      (argument (write .separator state).state).result = .value value ∧
      (argument (write .separator state).state).events = [] ∧
      MoreGive rest (write (.value value) (argument (write .separator state).state).state).state others ∧
      values = value :: others

/-- All runs of a line end with these values and without events where the line evaluates them. -/
def LineGives : List (Traced S E Val) → S → List Val → Prop
  | [], _, values => values = []
  | argument :: rest, state, values => ∃ value others, (argument state).result = .value value ∧
      (argument state).events = [] ∧ MoreGive write rest (write (.value value) (argument state).state).state others ∧
      values = value :: others

variable {same} {write} {state start : S} {arguments : List (Traced S E Val)} {values : List Val}
  {steps : List (PrintStep Val)} {outcome : Outcome S (PrintMark Val E) Unit}

/-- A write returns, and leaves a state like the one before. -/
def WritesReturn (same : S → S → Prop) (write : PrintStep Val → Traced S E Unit) : Prop :=
  ∀ step state, (write step state).result = .value () ∧ same state (write step state).state

theorem effectless_of_writing (part : PrintPart Val) {run : Traced S E Val} (hpart : ¬ part.IsWriting)
    (h : ∀ found ∈ (run.mark part state).events, found.1.IsWriting) : run.Effectless state := by
  have hnone : (run.mark part state).events = [] := by
    refine List.eq_nil_iff_forall_not_mem.mpr fun found hfound => hpart ?_
    rw [← Traced.part_of_mem_mark hfound]
    exact h found hfound
  exact Traced.mark_events_eq_nil.mp hnone

theorem mark_of_effectless {part : PrintPart Val} {run : Traced S E Val} {value : Val} {β : Type}
    {next : Val → Traced S (PrintMark Val E) β} (h : (run state).result = .value value)
    (hevents : (run state).events = []) : (run.mark part >>= next) state = next value (run state).state := by
  rw [Traced.bind_of_effectless ((Traced.mark_result ..).trans h) (Traced.mark_events_eq_nil.mpr ⟨⟨value, h⟩, hevents⟩),
    Traced.mark_state]

/-- What the arguments give where the line evaluates them, they give in states like this one. -/
theorem MoreGive.give (hsame : Equivalence same) (hwrites : WritesReturn same write)
    (hquiet : ∀ argument ∈ arguments, argument.Quiet same) (hstart : same start state)
    (h : MoreGive write arguments state values) : ArgumentsGive same arguments start values := by
  induction arguments generalizing state values with
  | nil => exact h
  | cons argument rest ih =>
    obtain ⟨value, others, hvalue, hevents, hrest, rfl⟩ := h
    have hbefore := hsame.trans hstart (hwrites .separator state).2
    have hafter := hsame.trans hbefore (hquiet argument List.mem_cons_self _ hevents)
    refine ⟨_, value, others, hbefore, hvalue, hevents, ?_, rfl⟩
    exact ih (fun other hother => hquiet other (List.mem_cons_of_mem _ hother))
      (hsame.trans hafter (hwrites (.value value) _).2) hrest

theorem ArgumentsGive.evaluate (hsame : Equivalence same) (hquiet : ∀ argument ∈ arguments, argument.Quiet same)
    (h : ArgumentsGive same arguments state values) : evaluate_all same arguments state ⟨.value values, state, []⟩ := by
  induction arguments generalizing values with
  | nil =>
    cases h
    rfl
  | cons argument rest ih =>
    obtain ⟨before, value, others, hbefore, hvalue, hevents, hrest, rfl⟩ := h
    have hnone : (argument.mark PrintPart.argument before).events = ([] : List (PrintMark Val E)) :=
      Traced.mark_events_eq_nil.mpr ⟨⟨value, hvalue⟩, hevents⟩
    have hback : same (argument.mark (PrintPart.argument : PrintPart Val) before).state state := by
      rw [Traced.mark_state]
      exact hsame.symm (hsame.trans hbefore (hquiet argument List.mem_cons_self _ hevents))
    refine ⟨⟨.value value, state, []⟩, fun value after => ⟨.value (value :: others), after, []⟩,
      ⟨before, hbefore, ((Traced.mark_result ..).trans hvalue).symm, hnone.symm, hback⟩, ?_, rfl⟩
    intro other hother
    cases hother
    exact ⟨⟨.value others, state, []⟩, fun values after => ⟨.value (value :: values), after, []⟩,
      ih (fun other hother => hquiet other (List.mem_cons_of_mem _ hother)) hrest, fun _ _ => rfl, rfl⟩

theorem ArgumentsGive.of_same (hsame : Equivalence same) (hstart : same start state)
    (h : ArgumentsGive same arguments state values) : ArgumentsGive same arguments start values := by
  induction arguments generalizing values with
  | nil => exact h
  | cons argument rest ih =>
    obtain ⟨before, value, others, hbefore, hvalue, hevents, hrest, rfl⟩ := h
    exact ⟨before, value, others, hsame.trans hstart hbefore, hvalue, hevents, ih hrest, rfl⟩

/-- Evaluating the arguments leaves marks of arguments only, and none where they are effectless. -/
theorem evaluate_all_marks (hsame : Equivalence same) (hquiet : ∀ argument ∈ arguments, argument.Quiet same)
    {outcome : Outcome S (PrintMark Val E) (List Val)} (h : evaluate_all same arguments state outcome) :
    (∀ found ∈ outcome.events, found.1 = .argument) ∧
      (outcome.events = [] → ∃ values, outcome.result = .value values ∧ ArgumentsGive same arguments state values) := by
  induction arguments generalizing state outcome with
  | nil =>
    cases h
    exact ⟨fun _ hfound => absurd hfound List.not_mem_nil, fun _ => ⟨[], rfl, rfl⟩⟩
  | cons argument rest ih =>
    obtain ⟨first, next, ⟨before, hbefore, hresult, hevents, hstate⟩, hnext, rfl⟩ := h
    have hpart : ∀ found ∈ first.events, found.1 = PrintPart.argument := by
      rw [hevents]
      exact fun found => Traced.part_of_mem_mark
    rw [Traced.mark_result] at hresult
    cases hvalue : (argument before).result with
    | value value =>
      rw [hvalue] at hresult
      obtain ⟨second, hsecond, hsecond_events, hsecond_result⟩ := TracedRun.Allowed.of_bind_pure (hnext value hresult)
      obtain ⟨hmarks, hgives⟩ := ih (fun other hother => hquiet other (List.mem_cons_of_mem _ hother)) hsecond
      rw [Outcome.and_then, hresult]
      dsimp only
      rw [hsecond_events]
      constructor
      · intro found hfound
        obtain hfound | hfound := List.mem_append.mp hfound
        · exact hpart found hfound
        · exact hmarks found hfound
      · intro hnone
        obtain ⟨hfirst, hrest⟩ := List.append_eq_nil_iff.mp hnone
        obtain ⟨values, hvalues, hgive⟩ := hgives hrest
        have hargument := (Traced.mark_events_eq_nil.mp (hevents.symm.trans hfirst)).2
        rw [Traced.mark_state] at hstate
        have hlike := hsame.trans hbefore (hsame.trans (hquiet argument List.mem_cons_self _ hargument) hstate)
        exact ⟨value :: values, hsecond_result values hvalues, before, value, values, hbefore, hvalue, hargument,
          hgive.of_same hsame hlike, rfl⟩
    | timeout | raised _ | crashed =>
      have hstop : (first.and_then next).events = first.events := by
        rw [Outcome.and_then, hresult, hvalue]
      rw [hstop]
      refine ⟨hpart, fun hnone => ?_⟩
      obtain ⟨⟨value, hother⟩, -⟩ := Traced.mark_events_eq_nil.mp (hevents.symm.trans hnone)
      cases hvalue.symm.trans hother

theorem written_steps_announce {β : Type} (step : PrintStep Val) (run : Traced S E β) (state : S) :
    written_steps ((run.announce (.writing step)) state).events = [step] := by
  rw [Traced.announce_events]
  unfold written_steps
  rw [List.filterMap_cons, List.filterMap_map]
  exact congrArg (step :: ·) (List.filterMap_eq_nil_iff.mpr fun _ _ => rfl)

/-- Writing leaves marks of writes only, the steps in order, and returns. -/
theorem write_all_marks (hwrites : WritesReturn same write) (h : write_all same write steps state outcome) :
    outcome.result = .value () ∧ written_steps outcome.events = steps ∧
      ∀ found ∈ outcome.events, found.1.IsWriting := by
  induction steps generalizing state outcome with
  | nil =>
    cases h
    exact ⟨rfl, rfl, fun _ hfound => absurd hfound List.not_mem_nil⟩
  | cons step rest ih =>
    obtain ⟨first, next, ⟨before, hbefore, hresult, hevents, hstate⟩, hnext, rfl⟩ := h
    unfold write_step at hresult hevents
    rw [Traced.announce_result, (hwrites step before).1] at hresult
    obtain ⟨hlast, hsteps, hmarks⟩ := ih (hnext () hresult)
    rw [Outcome.and_then, hresult]
    refine ⟨hlast, ?_, fun found hfound => ?_⟩
    · change written_steps (_ ++ _) = _
      rw [written_steps, List.filterMap_append]
      change written_steps _ ++ written_steps _ = _
      rw [hsteps, hevents, written_steps_announce]
      rfl
    · obtain hfound | hfound := List.mem_append.mp hfound
      · rw [hevents, Traced.announce_events] at hfound
        obtain rfl | hfound := List.mem_cons.mp hfound
        · trivial
        · obtain ⟨_, _, rfl⟩ := List.mem_map.mp hfound
          trivial
      · exact hmarks found hfound

theorem write_step_bind (hwrites : WritesReturn same write) (step : PrintStep Val) {β : Type}
    (next : Unit → Traced S (PrintMark Val E) β) (state : S) :
    (write_step write step >>= next) state = ⟨(next () (write step state).state).result,
      (next () (write step state).state).state,
      (write_step write step state).events ++ (next () (write step state).state).events⟩ := by
  have hresult : (write_step write step state).result = .value () := (Traced.announce_result ..).trans (hwrites step state).1
  have hstate : (write_step write step state).state = (write step state).state := Traced.announce_state ..
  rw [Traced.bind_of_value hresult, hstate]

theorem more_fragments_cons (argument : Traced S E Val) (rest : List (Traced S E Val))
    (tail : Traced S (PrintMark Val E) Unit) :
    more_fragments write (argument :: rest) >>= (fun _ => tail) = write_step write .separator >>= fun _ =>
      argument.mark .argument >>= fun value => write_step write (.value value) >>= fun _ =>
        more_fragments write rest >>= fun _ => tail := by
  simp only [more_fragments, Traced.bind_assoc]

/-- Arguments without effects are written as those of a unit. -/
theorem MoreGive.write_all (hsame : Equivalence same) (hwrites : WritesReturn same write)
    (hquiet : ∀ argument ∈ arguments, argument.Quiet same) (h : MoreGive write arguments state values)
    {tail : Traced S (PrintMark Val E) Unit} (htail : ∀ state, quawk.write_all same write steps state (tail state)) :
    quawk.write_all same write (more_steps values ++ steps) state
      ((more_fragments write arguments >>= fun _ => tail) state) := by
  induction arguments generalizing state values with
  | nil =>
    cases h
    exact htail state
  | cons argument rest ih =>
    obtain ⟨value, others, hvalue, hevents, hrest, rfl⟩ := h
    rw [more_fragments_cons]
    refine TracedRun.Allowed.bind_intro (TracedRun.Allowed.loosely_of_same hsame rfl rfl (hsame.refl _)) fun _ _ => ?_
    unfold write_step
    rw [Traced.announce_state, mark_of_effectless hvalue hevents]
    refine TracedRun.Allowed.loosely_bind_of_same hsame (hquiet argument List.mem_cons_self _ hevents) ?_
    refine TracedRun.Allowed.bind_intro (TracedRun.Allowed.loosely_of_same hsame rfl rfl (hsame.refl _)) fun _ _ => ?_
    rw [Traced.announce_state]
    exact ih (fun other hother => hquiet other (List.mem_cons_of_mem _ hother)) hrest

/-- Arguments that leave no marks between the writes are without effects. -/
theorem more_fragments_give (hwrites : WritesReturn same write) (tail : Traced S (PrintMark Val E) Unit)
    (h : ∀ found ∈ ((more_fragments write arguments >>= fun _ => tail) state).events, found.1.IsWriting) :
    ∃ values, MoreGive write arguments state values := by
  induction arguments generalizing state with
  | nil => exact ⟨[], rfl⟩
  | cons argument rest ih =>
    rw [more_fragments_cons, write_step_bind hwrites] at h
    have hmarks := fun found hfound => h found (List.mem_append_right _ hfound)
    obtain ⟨⟨value, hvalue⟩, hevents⟩ := effectless_of_writing .argument id fun found hfound =>
      hmarks found (Traced.mem_events_bind hfound)
    rw [mark_of_effectless hvalue hevents, write_step_bind hwrites] at hmarks
    obtain ⟨values, hrest⟩ := ih fun found hfound => hmarks found (List.mem_append_right _ hfound)
    exact ⟨value :: values, value, values, hvalue, hevents, hrest, rfl⟩

theorem spelled_write_step (step : PrintStep Val) :
    Traced.spelled Traced.unmarked (write_step write step) = write step := Traced.spelled_announce _ _

theorem spelled_fragments_singleton (argument : Traced S E Val) :
    Traced.spelled Traced.unmarked (fragments write [argument]) = argument >>= fun value => write (.value value) := by
  simp only [fragments, more_fragments, Traced.spelled_bind, Traced.spelled_mark, spelled_write_step,
    Traced.spelled_pure]
  congr 1
  funext value
  exact Traced.bind_pure _

theorem spelled_fragments_cons (argument other : Traced S E Val) (rest : List (Traced S E Val)) :
    Traced.spelled Traced.unmarked (fragments write (argument :: other :: rest)) =
      argument >>= fun value => write (.value value) >>= fun _ => write .separator >>= fun _ =>
        Traced.spelled Traced.unmarked (fragments write (other :: rest)) := by
  simp only [fragments, more_fragments, Traced.spelled_bind, Traced.spelled_mark, spelled_write_step]

theorem line_run_cons (argument : Traced S E Val) (rest : List (Traced S E Val)) :
    line_run write (argument :: rest) = argument.mark .argument >>= fun value =>
      write_step write (.value value) >>= fun _ =>
        more_fragments write rest >>= fun _ => write_step write .record_separator := by
  simp only [line_run, fragments, Traced.bind_assoc]

theorem write_record_separator (hsame : Equivalence same) (state : S) :
    write_all same write [.record_separator] state (write_step write .record_separator state) := by
  have hwritten : loosely same (write_step write .record_separator) state (write_step write .record_separator state) :=
    TracedRun.Allowed.loosely_of_same hsame rfl rfl (hsame.refl _)
  have h : (loosely same (write_step write .record_separator) >>= fun _ =>
      (Pure.pure () : Allowed S (PrintMark Val E) Unit)) state
        ((write_step write .record_separator >>= fun _ => Pure.pure ()) state) :=
    TracedRun.Allowed.bind_intro hwritten fun _ _ => rfl
  rwa [Traced.bind_pure] at h

/-- Arguments without effects are written as those of a unit. -/
theorem LineGives.write_all (hsame : Equivalence same) (hwrites : WritesReturn same write)
    (hquiet : ∀ argument ∈ arguments, argument.Quiet same) (h : LineGives write arguments state values) :
    quawk.write_all same write (line_steps values ++ [.record_separator]) state (line_run write arguments state) := by
  cases arguments with
  | nil =>
    cases h
    exact write_record_separator hsame state
  | cons argument rest =>
    obtain ⟨value, others, hvalue, hevents, hrest, rfl⟩ := h
    rw [line_run_cons, mark_of_effectless hvalue hevents]
    refine TracedRun.Allowed.loosely_bind_of_same hsame (hquiet argument List.mem_cons_self _ hevents) ?_
    refine TracedRun.Allowed.bind_intro (TracedRun.Allowed.loosely_of_same hsame rfl rfl (hsame.refl _)) fun _ _ => ?_
    unfold write_step
    rw [Traced.announce_state]
    exact hrest.write_all hsame hwrites (fun other hother => hquiet other (List.mem_cons_of_mem _ hother))
      (write_record_separator hsame)

/-- Arguments that leave no marks are without effects. -/
theorem line_gives (hwrites : WritesReturn same write)
    (h : ∀ found ∈ (line_run write arguments state).events, found.1.IsWriting) :
    ∃ values, LineGives write arguments state values := by
  cases arguments with
  | nil => exact ⟨[], rfl⟩
  | cons argument rest =>
    rw [line_run_cons] at h
    obtain ⟨⟨value, hvalue⟩, hevents⟩ := effectless_of_writing .argument id fun found hfound =>
      h found (Traced.mem_events_bind hfound)
    rw [mark_of_effectless hvalue hevents, write_step_bind hwrites] at h
    obtain ⟨values, hrest⟩ := more_fragments_give hwrites _ fun found hfound => h found (List.mem_append_right _ hfound)
    exact ⟨value :: values, value, values, hvalue, hevents, hrest, rfl⟩

/-- What follows a write in marks of which all writes come last. -/
theorem writing_after_write {front before after : List (PrintMark Val E)} (back : List (PrintMark Val E))
    {mark : PrintMark Val E}
    (h : front ++ back = before ++ mark :: after) (hfront : ∀ found ∈ front, ¬ found.1.IsWriting)
    (hback : ∀ found ∈ back, found.1.IsWriting) (hmark : mark.1.IsWriting) :
    ∀ found ∈ after, found.1.IsWriting := by
  obtain ⟨middle, rfl, hafter⟩ | ⟨middle, rfl, hback_eq⟩ := List.append_eq_append_iff.mp h
  · intro found hfound
    exact hback found (by rw [hafter]; exact List.mem_append_right _ (List.mem_cons_of_mem _ hfound))
  · cases middle with
    | nil =>
      intro found hfound
      exact hback found (by rw [← (show mark :: after = back from hback_eq)]; exact List.mem_cons_of_mem _ hfound)
    | cons head middle =>
      obtain ⟨rfl, -⟩ := List.cons.inj hback_eq
      exact absurd hmark (hfront mark (List.mem_append_right _ List.mem_cons_self))

theorem not_writing_of_argument {found : PrintMark Val E} (h : found.1 = .argument) : ¬ found.1.IsWriting := by
  rw [h]
  exact id

/-- The first argument with all its marks, and the others without. -/
theorem evaluate_first (hsame : Equivalence same) {argument : Traced S E Val} {rest : List (Traced S E Val)} {value : Val}
    (hvalue : (argument start).result = .value value)
    (hrest : evaluate_all same rest (argument start).state ⟨.value values, (argument start).state, []⟩) :
    evaluate_all same (argument :: rest) start ⟨.value (value :: values), (argument start).state,
      (argument.mark PrintPart.argument start).events⟩ := by
  have hmarked := (Traced.mark_result (PrintPart.argument : PrintPart Val) argument start).trans hvalue
  refine ⟨argument.mark .argument start, fun value after => ⟨.value (value :: values), after, []⟩,
    TracedRun.Allowed.loosely_of_same hsame rfl rfl (hsame.refl _), fun other hother => ?_, ?_⟩
  · rw [Traced.mark_state]
    exact ⟨_, fun values after => ⟨.value (other :: values), after, []⟩, hrest, fun _ _ => rfl, rfl⟩
  · unfold Outcome.and_then
    rw [hmarked, Traced.mark_state]
    exact congrArg _ (List.append_nil _).symm

/-- A line on the standard output is a unit just if the arguments after the first are without effects. -/
theorem unit_line_iff (hsame : Equivalence same) (hwrites : WritesReturn same write) (argument : Traced S E Val)
    (rest : List (Traced S E Val)) (hquiet : ∀ other ∈ argument :: rest, other.Quiet same) (start : S) :
    unit_line same write (argument :: rest) start (line_run write (argument :: rest) start) ↔
      ∀ value, (argument start).result = .value value →
        ∃ values, MoreGive write rest (write (.value value) (argument start).state).state values := by
  rw [line_run_cons]
  constructor
  · rintro ⟨first, next, hfirst, hnext, houtcome⟩ value hvalue
    obtain ⟨hfront, -⟩ := evaluate_all_marks hsame hquiet hfirst
    rw [Traced.bind_of_value ((Traced.mark_result ..).trans hvalue), write_step_bind hwrites, Traced.mark_state]
      at houtcome
    have hevents := congrArg Outcome.events houtcome
    unfold write_step at hevents
    rw [Traced.announce_events] at hevents
    refine more_fragments_give hwrites (write_step write .record_separator) fun found hfound => ?_
    cases hresult : first.result with
    | value values =>
      obtain ⟨-, -, hback⟩ := write_all_marks hwrites (hnext values hresult)
      rw [Outcome.and_then, hresult] at hevents
      refine writing_after_write _ hevents.symm (fun found h => not_writing_of_argument (hfront found h)) hback trivial
        found (List.mem_append_right _ hfound)
    | timeout | raised _ | crashed =>
      rw [Outcome.and_then, hresult] at hevents
      refine writing_after_write [] ((List.append_nil _).trans hevents.symm)
        (fun found h => not_writing_of_argument (hfront found h)) (fun _ h => absurd h List.not_mem_nil) trivial
        found (List.mem_append_right _ hfound)
  · intro h
    have hmarked : loosely same (argument.mark (PrintPart.argument : PrintPart Val)) start
        (argument.mark (PrintPart.argument : PrintPart Val) start) :=
      TracedRun.Allowed.loosely_of_same hsame rfl rfl (hsame.refl _)
    by_cases hstop : ∀ value, (argument.mark (PrintPart.argument : PrintPart Val) start).result ≠ .value value
    · obtain ⟨hstops, heq⟩ := Outcome.and_then_of_stop hstop
        (fun value => write_step write (.value value) >>= fun _ =>
          more_fragments write rest >>= fun _ => write_step write .record_separator)
        (fun _ => (pure [] : Traced S (PrintMark Val E) (List Val))) (fun _ => pure ())
      exact ⟨_, _, ⟨_, _, hmarked, fun value hvalue => absurd hvalue (hstop value), rfl⟩,
        fun values hvalues => absurd hvalues (hstops values), heq⟩
    · obtain ⟨value, hvalue⟩ := Classical.not_forall_not.mp hstop
      have hargument := (Traced.mark_result ..).symm.trans hvalue
      obtain ⟨values, hgive⟩ := h value hargument
      have hrest := fun other hother => hquiet other (List.mem_cons_of_mem argument hother)
      have hgives := hgive.give hsame hwrites hrest (hwrites (.value value) _).2
      refine ⟨_, fun _ => write_step write (.value value) >>= fun _ => more_fragments write rest >>= fun _ =>
        write_step write .record_separator, evaluate_first hsame hargument (hgives.evaluate hsame hrest), ?_, ?_⟩
      · intro values' hvalues
        cases hvalues
        refine TracedRun.Allowed.bind_intro (TracedRun.Allowed.loosely_of_same hsame rfl rfl (hsame.refl _)) fun _ _ => ?_
        unfold write_step
        rw [Traced.announce_state]
        exact hgive.write_all hsame hwrites hrest (write_record_separator hsame)
      · rw [Traced.bind_of_value hvalue, Traced.mark_state]
        rfl

theorem written_steps_append (front back : List (PrintMark Val E)) :
    written_steps (front ++ back) = written_steps front ++ written_steps back := List.filterMap_append

theorem written_steps_target {name : Type} (target : Traced S E name) (state : S) :
    written_steps (target.mark (PrintPart.target : PrintPart Val) state).events = [] := by
  refine List.filterMap_eq_nil_iff.mpr fun found hfound => ?_
  obtain ⟨part, event⟩ := found
  obtain rfl : part = .target := Traced.part_of_mem_mark hfound
  rfl

theorem more_steps_injective {values others : List Val} (h : more_steps values = more_steps others) : values = others := by
  induction values generalizing others with
  | nil =>
    cases others with
    | nil => rfl
    | cons _ _ => cases h
  | cons value values ih =>
    cases others with
    | nil => cases h
    | cons other others =>
      simp only [more_steps, List.cons.injEq, PrintStep.value.injEq, true_and] at h
      rw [h.1, ih h.2]

theorem line_steps_injective {values others : List Val} (h : line_steps values = line_steps others) : values = others := by
  cases values with
  | nil =>
    cases others with
    | nil => rfl
    | cons _ _ => cases h
  | cons value values =>
    cases others with
    | nil => cases h
    | cons other others =>
      simp only [line_steps, List.cons.injEq, PrintStep.value.injEq] at h
      rw [h.1, more_steps_injective h.2]

section Redirected

variable {Handle : Type} {open_output : Option Text → Traced S E Handle} {target : Traced S E (Option Text)}
  {write : Handle → PrintStep Val → Traced S E Unit}

/-- The marks of a redirected line, where its stream is opened. -/
theorem redirected_run_events {name : Option Text} {handle : Handle} (hname : (target start).result = .value name)
    (hhandle : (open_output name (target start).state).result = .value handle) :
    (redirected_run open_output target write arguments start).events =
      (target.mark PrintPart.target start).events ++
        (((open_output name).announce (.writing (.opening name)) (target start).state).events ++
          (line_run (write handle) arguments (open_output name (target start).state).state).events) := by
  unfold redirected_run
  rw [Traced.bind_of_value ((Traced.mark_result ..).trans hname), Traced.mark_state,
    Traced.bind_of_value ((Traced.announce_result ..).trans hhandle), Traced.announce_state]

/-- A redirected line does not begin with an argument. -/
theorem redirected_run_head (hopen : ∀ name state, ∃ handle, (open_output name state).result = .value handle)
    {found : PrintMark Val E} {more : List (PrintMark Val E)}
    (h : (redirected_run open_output target write arguments start).events = found :: more) : found.1 ≠ .argument := by
  cases hmarks : (target.mark (PrintPart.target : PrintPart Val) start).events with
  | cons head tail =>
    obtain ⟨rest, hrest⟩ := (target.mark (PrintPart.target : PrintPart Val) start).and_then_events fun name =>
      (open_output name).announce (.writing (.opening name)) >>= fun handle => line_run (write handle) arguments
    change (redirected_run open_output target write arguments start).events = _ at hrest
    rw [h, hmarks] at hrest
    obtain ⟨rfl, -⟩ := List.cons.inj hrest
    have hpart := Traced.part_of_mem_mark (show found ∈ _ by rw [hmarks]; exact List.mem_cons_self)
    rw [hpart]
    exact fun heq => nomatch heq
  | nil =>
    obtain ⟨⟨name, hname⟩, -⟩ := Traced.mark_events_eq_nil.mp hmarks
    obtain ⟨handle, hhandle⟩ := hopen name (target start).state
    rw [redirected_run_events hname hhandle, hmarks, Traced.announce_events] at h
    obtain ⟨rfl, -⟩ := List.cons.inj h
    exact fun heq => nomatch heq

/-- The marks of a redirected unit after its arguments: those of the target, and then those of the stream and of what
is written. -/
theorem unit_redirected_marks (hwrites : ∀ handle, WritesReturn same (write handle))
    (hopen : ∀ name state, ∃ handle, (open_output name state).result = .value handle)
    (h : (loosely same (target.mark .target) >>= fun name =>
      loosely same ((open_output name).announce (.writing (.opening name))) >>= fun handle =>
        write_all same (write handle) (line_steps values ++ [.record_separator])) state outcome) :
    ∃ front back, outcome.events = front ++ back ∧ (∀ found ∈ front, ¬ found.1.IsWriting) ∧
      (∀ found ∈ back, found.1.IsWriting) ∧ (back ≠ [] → ∃ name,
        written_steps outcome.events = .opening name :: (line_steps values ++ [.record_separator])) := by
  obtain ⟨second, next, ⟨before, -, -, hevents, -⟩, hnext, rfl⟩ := h
  have hfront : ∀ found ∈ second.events, ¬ found.1.IsWriting := by
    intro found hfound
    rw [hevents] at hfound
    rw [Traced.part_of_mem_mark hfound]
    exact id
  have hnone : written_steps second.events = [] := hevents ▸ written_steps_target target before
  cases hresult : second.result with
  | value name =>
    obtain ⟨third, last, ⟨opened, -, hthird, hthird_events, -⟩, hlast, hnext_eq⟩ := hnext name hresult
    obtain ⟨handle, hhandle⟩ := hopen name opened
    rw [Traced.announce_result, hhandle] at hthird
    obtain ⟨-, hsteps, hback⟩ := write_all_marks (hwrites handle) (hlast handle hthird)
    have hopening : written_steps third.events = [.opening name] := hthird_events ▸ written_steps_announce ..
    rw [Outcome.and_then, hresult]
    dsimp only
    rw [hnext_eq, Outcome.and_then, hthird]
    refine ⟨second.events, third.events ++ (last handle third.state).events, rfl, hfront, ?_, fun _ => ⟨name, ?_⟩⟩
    · intro found hfound
      obtain hfound | hfound := List.mem_append.mp hfound
      · rw [hthird_events, Traced.announce_events] at hfound
        obtain rfl | hfound := List.mem_cons.mp hfound
        · trivial
        · obtain ⟨_, _, rfl⟩ := List.mem_map.mp hfound
          trivial
      · exact hback found hfound
    · rw [written_steps_append, written_steps_append, hnone, hopening, hsteps]
      rfl
  | timeout | raised _ | crashed =>
    rw [Outcome.and_then, hresult]
    exact ⟨second.events, [], (List.append_nil _).symm, hfront, fun _ h => absurd h List.not_mem_nil,
      fun h => absurd rfl h⟩

/-- A redirected line is a unit just if its arguments are without effects and give before the target what they give
after it. -/
theorem unit_redirected_iff (hsame : Equivalence same) (hwrites : ∀ handle, WritesReturn same (write handle))
    (hopen : ∀ name state, ∃ handle, (open_output name state).result = .value handle)
    (hquiet : ∀ argument ∈ arguments, argument.Quiet same) (start : S) :
    unit_redirected same open_output target write arguments start
        (redirected_run open_output target write arguments start) ↔
      ∃ values, ArgumentsGive same arguments start values ∧ ∀ name handle, (target start).result = .value name →
        (open_output name (target start).state).result = .value handle →
          LineGives (write handle) arguments (open_output name (target start).state).state values := by
  constructor
  · rintro ⟨first, next, hfirst, hnext, houtcome⟩
    obtain ⟨hfront, hgives⟩ := evaluate_all_marks hsame hquiet hfirst
    have hnone : first.events = [] := by
      cases hevents : first.events with
      | nil => rfl
      | cons found rest =>
        obtain ⟨more, hmore⟩ := first.and_then_events next
        rw [← houtcome, hevents] at hmore
        exact absurd (hfront found (by rw [hevents]; exact List.mem_cons_self)) (redirected_run_head hopen hmore)
    obtain ⟨values, hvalues, hgive⟩ := hgives hnone
    refine ⟨values, hgive, fun name handle hname hhandle => ?_⟩
    obtain ⟨front, back, hmarks, hfront, hback, hsteps⟩ := unit_redirected_marks hwrites hopen (hnext values hvalues)
    have hevents : (redirected_run open_output target write arguments start).events = (next values first.state).events := by
      rw [houtcome, Outcome.and_then, hvalues, hnone]
      rfl
    have hrun := hevents.symm.trans (redirected_run_events hname hhandle)
    have hopened := hmarks.symm.trans hrun
    rw [Traced.announce_events] at hopened
    have hwriting := writing_after_write _ hopened hfront hback trivial
    obtain ⟨others, hothers⟩ := line_gives (hwrites handle) fun found hfound =>
      hwriting found (List.mem_append_right _ hfound)
    obtain ⟨-, hwritten, -⟩ := write_all_marks (hwrites handle) (hothers.write_all hsame (hwrites handle) hquiet)
    have hback_nonempty : back ≠ [] := by
      rintro rfl
      rw [List.append_nil] at hopened
      exact hfront (.writing (.opening name), none) (by rw [hopened]; simp) trivial
    obtain ⟨other, hsteps⟩ := hsteps hback_nonempty
    rw [hrun, written_steps_append, written_steps_append, written_steps_target, written_steps_announce, hwritten] at hsteps
    have hlines := (List.cons.inj hsteps).2
    rw [← line_steps_injective (List.append_cancel_right hlines)]
    exact hothers
  · rintro ⟨values, hgive, hline⟩
    refine ⟨⟨.value values, start, []⟩, fun _ => redirected_run open_output target write arguments,
      hgive.evaluate hsame hquiet, ?_, rfl⟩
    intro values' hvalues
    cases hvalues
    refine TracedRun.Allowed.bind_intro (TracedRun.Allowed.loosely_of_same hsame rfl rfl (hsame.refl _))
      fun name hname => ?_
    rw [Traced.mark_result] at hname
    rw [Traced.mark_state]
    refine TracedRun.Allowed.bind_intro (TracedRun.Allowed.loosely_of_same hsame rfl rfl (hsame.refl _))
      fun handle hhandle => ?_
    rw [Traced.announce_result] at hhandle
    rw [Traced.announce_state]
    exact (hline name handle hname hhandle).write_all hsame (hwrites handle) hquiet

end Redirected

end Abstract

end quawk
