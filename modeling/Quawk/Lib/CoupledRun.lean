import Quawk.Lib.EndingRun

namespace StatefulRun

namespace Run

variable {S T U α β σ : Type}

/-- Two runs end alike: with one value, in states related by `post`, or both out of time or crashed, in states
related by `stopped`. Neither raises. -/
inductive Alike (post : α → S → T → Prop) (stopped : S → T → Prop) : Result α × S → Result α × T → Prop where
  | value {value : α} {s : S} {t : T} (h : post value s t) : Alike post stopped (.value value, s) (.value value, t)
  | timeout {s : S} {t : T} (h : stopped s t) : Alike post stopped (.timeout, s) (.timeout, t)
  | crashed {s : S} {t : T} (h : stopped s t) : Alike post stopped (.crashed, s) (.crashed, t)

/-- From states related by `pre`, both runs end alike. -/
def Coupled (pre : S → T → Prop) (first : Run S α) (second : Run T α) (post : α → S → T → Prop)
    (stopped : S → T → Prop) : Prop :=
  ∀ s t, pre s t → Alike post stopped (first s) (second t)

section Rules

variable {pre pre' : S → T → Prop} {post post' : α → S → T → Prop} {stopped stopped' : S → T → Prop}

theorem Alike.mono {first : Result α × S} {second : Result α × T} (h : Alike post stopped first second)
    (hpost : ∀ value s t, post value s t → post' value s t) (hstopped : ∀ s t, stopped s t → stopped' s t) :
    Alike post' stopped' first second := by
  cases h with
  | value h => exact .value (hpost _ _ _ h)
  | timeout h => exact .timeout (hstopped _ _ h)
  | crashed h => exact .crashed (hstopped _ _ h)

theorem Alike.result {first : Result α × S} {second : Result α × T} (h : Alike post stopped first second) :
    first.1 = second.1 := by
  cases h <;> rfl

theorem Alike.states {related : S → T → Prop} {first : Result α × S} {second : Result α × T}
    (h : Alike (fun _ => related) related first second) : related first.2 second.2 := by
  cases h with
  | value h => exact h
  | timeout h => exact h
  | crashed h => exact h

theorem Coupled.mono {first : Run S α} {second : Run T α} (h : Coupled pre first second post stopped)
    (hpre : ∀ s t, pre' s t → pre s t) (hpost : ∀ value s t, post value s t → post' value s t)
    (hstopped : ∀ s t, stopped s t → stopped' s t) : Coupled pre' first second post' stopped' :=
  fun s t hst => (h s t (hpre s t hst)).mono hpost hstopped

theorem Coupled.pure {value : α} (h : ∀ s t, pre s t → post value s t) :
    Coupled pre (Pure.pure value : Run S α) (Pure.pure value) post stopped :=
  fun s t hst => .value (h s t hst)

theorem Coupled.timeout (h : ∀ s t, pre s t → stopped s t) :
    Coupled pre (Run.timeout : Run S α) Run.timeout post stopped :=
  fun s t hst => .timeout (h s t hst)

theorem Coupled.crash (h : ∀ s t, pre s t → stopped s t) :
    Coupled pre (Run.crash : Run S α) Run.crash post stopped :=
  fun s t hst => .crashed (h s t hst)

theorem Coupled.bind {post : β → S → T → Prop} {first : Run S β} {second : Run T β} {next : β → Run S α}
    {following : β → Run T α} (h : Coupled pre first second post stopped)
    (hnext : ∀ value, Coupled (post value) (next value) (following value) post' stopped) :
    Coupled pre (first >>= next) (second >>= following) post' stopped := by
  intro s t hst
  have hfirst := h s t hst
  change Alike post' stopped (Run.bind first next s) (Run.bind second following t)
  unfold Run.bind
  cases hs : first s with
  | mk result s' =>
    cases ht : second t with
    | mk other t' =>
      rw [hs, ht] at hfirst
      cases hfirst with
      | value hpost => exact hnext _ s' t' hpost
      | timeout hstopped => exact .timeout hstopped
      | crashed hstopped => exact .crashed hstopped

/-- A run of the second side that is never out of time, before both go on. -/
theorem Coupled.after {first : Run S α} {second : Run T β} {following : β → Run T α} {value : β} {step : T → T}
    (middle : S → T → Prop) (hsecond : ∀ t, second t = (.value value, step t))
    (hstep : ∀ s t, pre s t → middle s (step t))
    (hnext : Coupled middle first (following value) post stopped) :
    Coupled pre first (second >>= following) post stopped := by
  intro s t hst
  have hstart := hnext s (step t) (hstep s t hst)
  rwa [← show (second >>= following) t = following value (step t) from bind_of_ends (hsecond t)] at hstart

theorem Coupled.branch {condition : Prop} [Decidable condition] {first other : Run S α} {second another : Run T α}
    (htrue : condition → Coupled pre first second post stopped)
    (hfalse : ¬condition → Coupled pre other another post stopped) :
    Coupled pre (if condition then first else other) (if condition then second else another) post stopped := by
  split
  · next h => exact htrue h
  · next h => exact hfalse h

/-- Neither side raises, so a handler of the second one is never run. -/
theorem Coupled.attempt {first : Run S α} {second : Run T α} {handler : String → Run T α}
    (h : Coupled pre first second post stopped) :
    Coupled pre first (Run.attempt second handler) post stopped := by
  intro s t hst
  have hfirst := h s t hst
  unfold Run.attempt
  cases hs : first s with
  | mk result s' =>
    cases ht : second t with
    | mk other t' =>
      rw [hs, ht] at hfirst
      cases hfirst with
      | value hpost => exact .value hpost
      | timeout hstopped => exact .timeout hstopped
      | crashed hstopped => exact .crashed hstopped

/-- Two loops whose steps go on alike. -/
theorem Coupled.iterate (inv : σ → S → T → Prop) {first : σ → Run S (σ ⊕ α)} {second : σ → Run T (σ ⊕ α)}
    (hstep : ∀ position, Coupled (inv position) (first position) (second position)
      (fun result => result.elim inv post) stopped)
    (hstopped : ∀ position s t, inv position s t → stopped s t) (fuel : Nat) (position : σ) :
    Coupled (inv position) (iterate first fuel position) (iterate second fuel position) post stopped := by
  induction fuel generalizing position with
  | zero => exact .timeout (hstopped position)
  | succ fuel ih =>
    refine (hstep position).bind fun result => ?_
    cases result with
    | inl position => exact ih position
    | inr value => exact .pure fun _ _ hpost => hpost

/-- A second run that is made in a frame of its own. -/
theorem Coupled.framed {first : Run S α} {second : Run T α} (enter : T → T) (leave : T → T → T)
    (h : ∀ s t, pre s t → Alike post stopped (first s) (second (enter t)))
    (hpost : ∀ value s t after, post value s after → post' value s (leave t after))
    (hstopped : ∀ s t after, stopped s after → stopped' s (leave t after)) :
    Coupled pre first (fun t => ((second (enter t)).1, leave t (second (enter t)).2)) post' stopped' := by
  intro s t hst
  have hrun := h s t hst
  change Alike post' stopped' (first s) ((second (enter t)).1, leave t (second (enter t)).2)
  generalize first s = meaning at hrun ⊢
  cases hresult : second (enter t) with
  | mk result after =>
    rw [hresult] at hrun
    cases hrun with
    | value hafter => exact .value (hpost _ _ _ _ hafter)
    | timeout hafter => exact .timeout (hstopped _ _ _ hafter)
    | crashed hafter => exact .crashed (hstopped _ _ _ hafter)

/-- Runs coupled through a run in between, whose state is a view of the second one's. -/
theorem Alike.trans (view : T → U) {middle : α → S → U → Prop} {outer : S → U → Prop}
    {first : Result α × S} {second : Result α × U} {third : Result α × T}
    (h1 : Alike middle outer first second)
    (h2 : Alike (fun _ u t => view t = u) (fun u t => view t = u) second third) :
    Alike (fun value s t => middle value s (view t)) (fun s t => outer s (view t)) first third := by
  cases h1 with
  | value h =>
    cases h2 with
    | value heq => exact .value (heq ▸ h)
  | timeout h =>
    cases h2 with
    | timeout heq => exact .timeout (heq ▸ h)
  | crashed h =>
    cases h2 with
    | crashed heq => exact .crashed (heq ▸ h)

end Rules

end Run

end StatefulRun
