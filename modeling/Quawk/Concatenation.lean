import Quawk.Lib.HeapMemory

open HeapMemory

namespace quawk

/-- The memory of a runtime, where its scratch buffer is, and two empty texts that are never freed: that of
`QK_EMPTY_FIELD`, and the literal that stands for a null operand. -/
structure HeapRuntime where
  memory : Memory
  scratch_buffer : Nat
  scratch_capacity : Nat
  QK_EMPTY_FIELD : Nat
  empty_literal : Nat

namespace HeapRuntime

variable (runtime : HeapRuntime) (allocator : Allocator)

def scratch : Block := ⟨runtime.scratch_buffer, runtime.scratch_capacity⟩

def qk_pointer_aliases_scratch (text : Nat) : Bool :=
  if runtime.scratch_buffer = 0 ∨ text = 0 then false
  else
    let start := runtime.scratch_buffer
    let stop := start + runtime.scratch_capacity
    decide (start ≤ text) && decide (text < stop)

def qk_strdup_or_null (text : Nat) : Option (Nat × HeapRuntime) :=
  if text = 0 then some (0, runtime)
  else do
    let text_length := (← runtime.memory.strlen text) + 1
    let (copy, memory) := runtime.memory.malloc allocator text_length
    if copy = 0 then some (0, { runtime with memory })
    else
      let memory ← memory.memcpy copy text text_length
      some (copy, { runtime with memory })

/-- The growth of the buffer, where it is too small. -/
def grow_scratch (required : Nat) : Option (Bool × HeapRuntime) :=
  if runtime.scratch_capacity < required then do
    let (next, memory) ← runtime.memory.realloc allocator runtime.scratch_buffer required
    if next = 0 then some (false, { runtime with memory })
    else some (true, { runtime with memory, scratch_buffer := next, scratch_capacity := required })
  else some (true, runtime)

/-- A text that is put into the buffer at an offset, and the byte that ends it. -/
def put_scratch (offset text length : Nat) : Option HeapRuntime := do
  let memory ← runtime.memory.memcpy (runtime.scratch_buffer + offset) text length
  let memory ← memory.store (runtime.scratch_buffer + (offset + length)) 0
  some { runtime with memory }

def qk_store_scratch (text length : Nat) : Option (Bool × HeapRuntime) := do
  let (grown, runtime) ← runtime.grow_scratch allocator (length + 1)
  if grown then some (true, ← runtime.put_scratch 0 text length) else some (false, runtime)

def free (pointer : Nat) : Option HeapRuntime := do
  let memory ← runtime.memory.free pointer
  some { runtime with memory }

def free_copies (left_copy right_copy : Nat) : Option HeapRuntime := do
  let runtime ← runtime.free left_copy
  runtime.free right_copy

/-- An operand outside the buffer, and the copy that has to be freed if there is one: an operand in the buffer is copied.
There is nothing where there is no room for the copy. -/
def copy_operand (text : Nat) : Option (Option (Nat × Nat) × HeapRuntime) :=
  if runtime.qk_pointer_aliases_scratch text then do
    let (copy, runtime) ← runtime.qk_strdup_or_null allocator text
    if copy = 0 then some (none, runtime) else some (some (copy, copy), runtime)
  else some (some (text, 0), runtime)

/-- The part of `qk_concat` behind the copies. -/
def join_operands (left right left_copy right_copy : Nat) : Option (Nat × HeapRuntime) := do
  let left_length ← runtime.memory.strlen left
  let right_length ← runtime.memory.strlen right
  let (stored, runtime) ← runtime.qk_store_scratch allocator left left_length
  if !stored then some (runtime.QK_EMPTY_FIELD, ← runtime.free_copies left_copy right_copy)
  else
    let (grown, runtime) ← runtime.grow_scratch allocator (left_length + right_length + 1)
    if !grown then some (runtime.QK_EMPTY_FIELD, ← runtime.free_copies left_copy right_copy)
    else
      let runtime ← runtime.put_scratch left_length right right_length
      let runtime ← runtime.free_copies left_copy right_copy
      some (runtime.scratch_buffer, runtime)

def qk_concat (left right : Nat) : Option (Nat × HeapRuntime) := do
  let left := if left = 0 then runtime.empty_literal else left
  let right := if right = 0 then runtime.empty_literal else right
  match ← runtime.copy_operand allocator left with
  | (none, runtime) => some (runtime.QK_EMPTY_FIELD, runtime)
  | (some (left, left_copy), runtime) =>
    match ← runtime.copy_operand allocator right with
    | (none, runtime) => some (runtime.QK_EMPTY_FIELD, ← runtime.free left_copy)
    | (some (right, right_copy), runtime) => runtime.join_operands allocator left right left_copy right_copy

/-- There is no buffer yet, or it is a block of its own. -/
def HasBuffer : Prop :=
  runtime.scratch_buffer = 0 ∧ runtime.scratch_capacity = 0 ∨ runtime.scratch ∈ runtime.memory.blocks

/-- A text that does not stand in the buffer. -/
def Outside (pointer : Nat) (text : List UInt8) : Prop :=
  ∃ block, runtime.memory.Spells block pointer text ∧ block ≠ runtime.scratch

/-- The two empty texts are not in the buffer. -/
structure Valid : Prop where
  buffer : runtime.HasBuffer
  empty_field : runtime.Outside runtime.QK_EMPTY_FIELD []
  empty_literal : runtime.Outside runtime.empty_literal []

/-- Every block but the buffer is kept, and there still is a buffer if there was one. -/
structure Proceeds (after : HeapRuntime) : Prop where
  buffer : after.HasBuffer
  keeps : ∀ block ∈ runtime.memory.blocks, block ≠ runtime.scratch →
    runtime.memory.Keeps block after.memory ∧ block ≠ after.scratch
  empty_field : after.QK_EMPTY_FIELD = runtime.QK_EMPTY_FIELD
  empty_literal : after.empty_literal = runtime.empty_literal

/-- A copy that is freed without loss to an earlier runtime: there is none, or it is a block that was not there. -/
def Freeable (earlier : HeapRuntime) (copy : Nat) : Prop :=
  copy = 0 ∨ ∃ block ∈ runtime.memory.blocks, block.start = copy ∧ block ≠ runtime.scratch ∧
    ¬ (block ∈ earlier.memory.blocks ∧ block ≠ earlier.scratch)

variable {runtime} {allocator} {earlier middle after : HeapRuntime} {block : Block} {pointer : Nat} {text : List UInt8}

theorem Proceeds.refl (h : runtime.HasBuffer) : runtime.Proceeds runtime where
  buffer := h
  keeps _ hblock hne := ⟨.refl hblock, hne⟩
  empty_field := rfl
  empty_literal := rfl

theorem Proceeds.trans (h : earlier.Proceeds runtime) (hlater : runtime.Proceeds after) : earlier.Proceeds after where
  buffer := hlater.buffer
  keeps block hblock hne := by
    obtain ⟨hkept, hne'⟩ := h.keeps block hblock hne
    obtain ⟨hkept', hne''⟩ := hlater.keeps block hkept.1 hne'
    exact ⟨hkept.trans hkept', hne''⟩
  empty_field := hlater.empty_field.trans h.empty_field
  empty_literal := hlater.empty_literal.trans h.empty_literal

theorem Outside.kept (h : runtime.Outside pointer text) (hproceeds : runtime.Proceeds after) : after.Outside pointer text := by
  obtain ⟨block, hspells, hne⟩ := h
  obtain ⟨hkept, hne'⟩ := hproceeds.keeps block hspells.live hne
  exact ⟨block, hspells.kept hkept, hne'⟩

theorem Valid.kept (h : runtime.Valid) (hproceeds : runtime.Proceeds after) : after.Valid where
  buffer := hproceeds.buffer
  empty_field := hproceeds.empty_field ▸ h.empty_field.kept hproceeds
  empty_literal := hproceeds.empty_literal ▸ h.empty_literal.kept hproceeds

theorem Freeable.kept {copy : Nat} (h : runtime.Freeable earlier copy) (hproceeds : runtime.Proceeds after) :
    after.Freeable earlier copy := by
  obtain hnull | ⟨block, hblock, hstart, hne, hnew⟩ := h
  · exact .inl hnull
  · obtain ⟨hkept, hne'⟩ := hproceeds.keeps block hblock hne
    exact .inr ⟨block, hkept.1, hstart, hne', hnew⟩

theorem Freeable.of_later {copy : Nat} (h : after.Freeable middle copy) (hproceeds : earlier.Proceeds middle) :
    after.Freeable earlier copy := by
  obtain hnull | ⟨block, hblock, hstart, hne, hnew⟩ := h
  · exact .inl hnull
  · refine .inr ⟨block, hblock, hstart, hne, fun hold => hnew ?_⟩
    obtain ⟨hkept, hne'⟩ := hproceeds.keeps block hold.1 hold.2
    exact ⟨hkept.1, hne'⟩

/-- The buffer and the blocks that were there are not freed with a copy. -/
theorem Freeable.start_ne {copy : Nat} (h : runtime.Freeable earlier copy) (hblock : block ∈ runtime.memory.blocks)
    (hold : block = runtime.scratch ∨ block ∈ earlier.memory.blocks ∧ block ≠ earlier.scratch) : block.start ≠ copy := by
  obtain rfl | ⟨freed, hfreed, rfl, hne, hnew⟩ := h
  · exact Nat.ne_of_gt (runtime.memory.nonnull block hblock)
  · refine (Memory.apart_of_mem hblock hfreed ?_).1
    rintro rfl
    exact hold.elim hne hnew

/-- A text that is not found to be in the buffer does not stand there. -/
theorem outside_of_not_aliases (h : runtime.memory.Spells block pointer text)
    (halias : runtime.qk_pointer_aliases_scratch pointer = false) : runtime.Outside pointer text := by
  refine ⟨block, h, ?_⟩
  rintro rfl
  have hpos := runtime.memory.nonnull _ h.live
  have hstart := h.start_le
  have hstop := h.le_stop
  change 0 < runtime.scratch_buffer at hpos
  change runtime.scratch_buffer ≤ pointer at hstart
  change pointer + (text.length + 1) ≤ runtime.scratch_buffer + runtime.scratch_capacity at hstop
  rw [qk_pointer_aliases_scratch, if_neg (by omega)] at halias
  simp only [Bool.and_eq_false_iff, decide_eq_false_iff_not] at halias
  omega

theorem qk_strdup_or_null_spec (allocator : Allocator) (hbuffer : runtime.HasBuffer)
    (h : runtime.memory.Spells block pointer text) :
    runtime.qk_strdup_or_null allocator pointer = some (0, runtime) ∧ ¬ allocator.Serves ∨
      ∃ copy after, runtime.qk_strdup_or_null allocator pointer = some (copy.start, after) ∧ copy.start ≠ 0 ∧
        runtime.Proceeds after ∧ (∀ other ∈ runtime.memory.blocks, runtime.memory.Keeps other after.memory) ∧
        after.memory.Spells copy copy.start text ∧ copy ≠ after.scratch ∧ copy ∉ runtime.memory.blocks := by
  have hpointer : pointer ≠ 0 := by
    have hpos := runtime.memory.nonnull _ h.live
    have hstart := h.start_le
    omega
  unfold qk_strdup_or_null
  rw [if_neg hpointer, h.strlen, Option.bind_eq_bind, Option.bind_some]
  dsimp only
  obtain ⟨hfull, hserves⟩ | ⟨copy, memory, hmalloc, hsize, hadded⟩ :=
    Memory.malloc_spec runtime.memory allocator (text.length + 1)
  · rw [hfull]
    exact .inl ⟨rfl, hserves⟩
  · have hspells := h.kept (hadded.keeps _ h.live)
    have hne : copy ≠ block := fun heq => hadded.fresh (heq ▸ h.live)
    have hstop : copy.start + (text.length + 1) ≤ copy.stop := Nat.le_of_eq (congrArg (copy.start + ·) hsize.symm)
    obtain ⟨written, hmemcpy, hwritten, hcopied⟩ :=
      Memory.memcpy_spec hadded.live hspells.live hne ⟨Nat.le_refl _, hstop⟩ ⟨hspells.start_le, hspells.le_stop⟩
    have hkeeps : ∀ other ∈ runtime.memory.blocks, runtime.memory.Keeps other written := fun other hother =>
      (hadded.keeps other hother).trans (hwritten.keeps hadded.live (Nat.le_refl _) hstop
        (hadded.keeps other hother).1 fun heq => hadded.fresh (heq ▸ hother))
    rw [hmalloc]
    dsimp only
    rw [if_neg hadded.nonnull, hmemcpy]
    refine .inr ⟨copy, { runtime with memory := written }, rfl, hadded.nonnull, ⟨?_, fun other hother hother' => ?_, rfl, rfl⟩,
      hkeeps, ⟨hwritten.blocks ▸ hadded.live, Nat.le_refl _, hstop, ?_, h.unbroken⟩, ?_, hadded.fresh⟩
    · exact hbuffer.imp_right fun hlive => (hkeeps _ hlive).1
    · exact ⟨hkeeps other hother, hother'⟩
    · exact hcopied _ (by rw [List.length_append, List.length_singleton]) hspells.bytes
    · obtain ⟨hnull, -⟩ | hlive := hbuffer
      · exact fun heq => hadded.nonnull (heq ▸ hnull)
      · exact fun heq => hadded.fresh (heq ▸ hlive)

theorem copy_operand_spec (allocator : Allocator) (hbuffer : runtime.HasBuffer)
    (h : runtime.memory.Spells block pointer text) :
    ∃ result after, runtime.copy_operand allocator pointer = some (result, after) ∧ runtime.Proceeds after ∧
      (∀ other ∈ runtime.memory.blocks, runtime.memory.Keeps other after.memory) ∧
      (result = none ∧ ¬ allocator.Serves ∨ ∃ operand copy, result = some (operand, copy) ∧ after.Outside operand text ∧
        after.Freeable runtime copy) := by
  unfold copy_operand
  cases halias : runtime.qk_pointer_aliases_scratch pointer with
  | false =>
    rw [if_neg Bool.false_ne_true]
    exact ⟨_, _, rfl, .refl hbuffer, fun _ => .refl, .inr ⟨pointer, 0, rfl, outside_of_not_aliases h halias, .inl rfl⟩⟩
  | true =>
    rw [if_pos rfl]
    obtain ⟨hfull, hserves⟩ | ⟨copy, after, hcopy, hnonnull, hproceeds, hkeeps, hspells, hne, hnew⟩ :=
      qk_strdup_or_null_spec allocator hbuffer h
    · rw [hfull]
      exact ⟨_, _, rfl, .refl hbuffer, fun _ => .refl, .inl ⟨rfl, hserves⟩⟩
    · rw [hcopy, Option.bind_eq_bind, Option.bind_some]
      dsimp only
      rw [if_neg hnonnull]
      exact ⟨_, _, rfl, hproceeds, hkeeps, .inr ⟨_, _, rfl, ⟨copy, hspells, hne⟩,
        .inr ⟨copy, hspells.live, rfl, hne, fun hold => hnew hold.1⟩⟩⟩

/-- The buffer is there, and this text of it is as it was. -/
structure KeepsBuffer (runtime after : HeapRuntime) (length : Nat) : Prop where
  live : after.scratch ∈ after.memory.blocks
  bytes : ∀ index, index < length →
    after.memory.bytes (after.scratch_buffer + index) = runtime.memory.bytes (runtime.scratch_buffer + index)

theorem KeepsBuffer.contains {length : Nat} (h : runtime.KeepsBuffer after length) (hlength : text.length ≤ length)
    (hcontains : runtime.memory.Contains runtime.scratch_buffer text) : after.memory.Contains after.scratch_buffer text :=
  hcontains.congr_at fun index hindex => h.bytes index (Nat.lt_of_lt_of_le hindex hlength)

/-- A buffer that grows keeps what was in it. -/
theorem grow_scratch_spec (allocator : Allocator) (hbuffer : runtime.HasBuffer) {required : Nat} (hrequired : 0 < required) :
    ∃ grown after, runtime.grow_scratch allocator required = some (grown, after) ∧ runtime.Proceeds after ∧
      (grown = false ∧ ¬ allocator.Serves ∨ grown = true ∧ required ≤ after.scratch_capacity ∧
        runtime.KeepsBuffer after (min runtime.scratch_capacity required)) := by
  unfold grow_scratch
  by_cases hsmall : runtime.scratch_capacity < required
  · rw [if_pos hsmall]
    obtain ⟨hnull, hempty⟩ | hlive := hbuffer
    · have hrealloc : runtime.memory.realloc allocator runtime.scratch_buffer required =
          some (runtime.memory.malloc allocator required) := by rw [hnull, Memory.realloc, if_pos rfl]
      rw [hrealloc, Option.bind_eq_bind, Option.bind_some]
      obtain ⟨hfull, hserves⟩ | ⟨moved, memory, hmalloc, rfl, hadded⟩ :=
        Memory.malloc_spec runtime.memory allocator required
      · rw [hfull]
        exact ⟨_, _, rfl, .refl (.inl ⟨hnull, hempty⟩), .inl ⟨rfl, hserves⟩⟩
      · rw [hmalloc]
        dsimp only
        rw [if_neg hadded.nonnull]
        refine ⟨_, _, rfl, ⟨.inr hadded.live, fun other hother _ => ⟨hadded.keeps other hother, ?_⟩, rfl, rfl⟩,
          .inr ⟨rfl, Nat.le_refl _, hadded.live, fun index hindex => ?_⟩⟩
        · exact fun heq => hadded.fresh ((show other = moved from heq) ▸ hother)
        · rw [hempty, Nat.zero_min] at hindex
          exact absurd hindex (Nat.not_lt_zero _)
    · obtain ⟨hfull, hserves⟩ | ⟨moved, memory, hrealloc, rfl, hmoved, hnonnull, hkeeps, hbytes⟩ :=
        Memory.realloc_spec allocator required hlive
      · change runtime.memory.realloc allocator runtime.scratch_buffer required = _ at hfull
        rw [hfull]
        exact ⟨_, _, rfl, .refl (.inr hlive), .inl ⟨rfl, hserves⟩⟩
      · change runtime.memory.realloc allocator runtime.scratch_buffer moved.size = _ at hrealloc
        rw [hrealloc, Option.bind_eq_bind, Option.bind_some]
        dsimp only
        rw [if_neg hnonnull]
        refine ⟨_, _, rfl, ⟨.inr hmoved, hkeeps, rfl, rfl⟩, .inr ⟨rfl, Nat.le_refl _, hmoved, fun index hindex => ?_⟩⟩
        exact hbytes index (Nat.lt_of_lt_of_le hindex (Nat.min_le_left _ _)) (Nat.lt_of_lt_of_le hindex (Nat.min_le_right _ _))
  · rw [if_neg hsmall]
    have hlive := hbuffer.resolve_left fun hnone => hsmall (hnone.2 ▸ hrequired)
    exact ⟨_, _, rfl, .refl hbuffer, .inr ⟨rfl, Nat.le_of_not_lt hsmall, hlive, fun _ _ => rfl⟩⟩

/-- A text from outside is put into the buffer behind what is kept of it. -/
theorem put_scratch_spec (hlive : runtime.scratch ∈ runtime.memory.blocks) {offset : Nat}
    (hfits : offset + (text.length + 1) ≤ runtime.scratch_capacity) (h : runtime.Outside pointer text) :
    ∃ after, runtime.put_scratch offset pointer text.length = some after ∧ runtime.Proceeds after ∧
      runtime.KeepsBuffer after offset ∧ after.scratch = runtime.scratch ∧
      after.memory.Contains (after.scratch_buffer + offset) (text ++ [0]) := by
  obtain ⟨block, hspells, hne⟩ := h
  have hstop : runtime.scratch.stop = runtime.scratch_buffer + runtime.scratch_capacity := rfl
  have hstart : runtime.scratch.start = runtime.scratch_buffer := rfl
  have hend := hspells.le_stop
  obtain ⟨copied, hmemcpy, hcopied, hcontains⟩ := Memory.memcpy_spec hlive hspells.live hne.symm
    (⟨by omega, by omega⟩ : runtime.scratch.start ≤ runtime.scratch_buffer + offset ∧
      runtime.scratch_buffer + offset + text.length ≤ runtime.scratch.stop) ⟨hspells.start_le, by omega⟩
  obtain ⟨ended, hstore, hended, hzero⟩ := @Memory.store_spec copied runtime.scratch
    (runtime.scratch_buffer + (offset + text.length)) 0 (hcopied.blocks ▸ hlive) (by omega) (by omega)
  have hkeeps : ∀ other ∈ runtime.memory.blocks, other ≠ runtime.scratch → runtime.memory.Keeps other ended := by
    intro other hother hother'
    have hkept := hcopied.keeps hlive (by omega) (by omega) hother hother'
    exact hkept.trans (hended.keeps (hcopied.blocks ▸ hlive) (by omega) (by omega) hkept.1 hother')
  have hended_live : runtime.scratch ∈ ended.blocks := hended.blocks ▸ hcopied.blocks ▸ hlive
  unfold put_scratch
  rw [hmemcpy, Option.bind_eq_bind, Option.bind_some, hstore]
  refine ⟨{ runtime with memory := ended }, rfl, ⟨.inr hended_live, fun other hother hother' =>
    ⟨hkeeps other hother hother', hother'⟩, rfl, rfl⟩, ⟨hended_live, fun index hindex => ?_⟩, rfl, ?_⟩
  · change ended.bytes (runtime.scratch_buffer + index) = _
    rw [hended.outside _ (by omega), hcopied.outside _ (by omega)]
  · change ended.Contains (runtime.scratch_buffer + offset) (text ++ [0])
    rw [Memory.contains_append]
    refine ⟨(hcontains text rfl (Memory.contains_append.mp hspells.bytes).1).congr_at fun index hindex => ?_, ?_⟩
    · exact hended.outside _ (by omega)
    · rwa [Nat.add_assoc]

/-- Copies that are freed are the only blocks that are lost. -/
theorem free_spec {copy : Nat} (hbuffer : runtime.HasBuffer) (h : runtime.Freeable earlier copy)
    (hearlier : earlier.Proceeds runtime) :
    ∃ after, runtime.free copy = some after ∧ earlier.Proceeds after ∧ after.scratch = runtime.scratch ∧
      ∀ block ∈ runtime.memory.blocks, block.start ≠ copy → runtime.memory.Keeps block after.memory := by
  unfold free
  obtain rfl | ⟨freed, hfreed, rfl, hne, hnew⟩ := h
  · rw [Memory.free, if_pos rfl, Option.bind_eq_bind, Option.bind_some]
    exact ⟨_, rfl, hearlier, rfl, fun block hblock _ => .refl hblock⟩
  · obtain ⟨memory, hfree, hkeeps⟩ := Memory.free_spec hfreed
    rw [hfree, Option.bind_eq_bind, Option.bind_some]
    refine ⟨{ runtime with memory }, rfl, ⟨?_, fun block hblock hne' => ?_, hearlier.empty_field, hearlier.empty_literal⟩, rfl,
      fun block hblock hstart => hkeeps block hblock fun heq => hstart (heq ▸ rfl)⟩
    · exact hbuffer.imp_right fun hlive => (hkeeps _ hlive hne.symm).1
    · obtain ⟨hkept, hscratch⟩ := hearlier.keeps block hblock hne'
      exact ⟨hkept.trans (hkeeps block hkept.1 fun heq => hnew ⟨heq ▸ hblock, heq ▸ hne'⟩), hscratch⟩

theorem free_copies_spec {left_copy right_copy : Nat} (hbuffer : runtime.HasBuffer)
    (hmiddle : earlier.Proceeds middle) (hproceeds : middle.Proceeds runtime) (hleft : middle.Freeable earlier left_copy)
    (hright : runtime.Freeable middle right_copy) :
    ∃ after, runtime.free_copies left_copy right_copy = some after ∧ earlier.Proceeds after ∧
      after.scratch = runtime.scratch ∧
      (runtime.scratch ∈ runtime.memory.blocks → runtime.memory.Keeps runtime.scratch after.memory) := by
  have hleft' := hleft.kept hproceeds
  obtain ⟨first, hfirst, hearlier, hscratch, hkept⟩ := free_spec hbuffer hleft' (hmiddle.trans hproceeds)
  have hright' : first.Freeable earlier right_copy := by
    obtain rfl | ⟨freed, hfreed, rfl, hne, hnew⟩ := hright
    · exact .inl rfl
    · have hstart : freed.start ≠ left_copy := by
        obtain rfl | ⟨block, hblock, rfl, hne', -⟩ := hleft
        · exact Nat.ne_of_gt (runtime.memory.nonnull freed hfreed)
        · refine (Memory.apart_of_mem hfreed (hproceeds.keeps block hblock hne').1.1 ?_).1
          rintro rfl
          exact hnew ⟨hblock, hne'⟩
      have hnew' : first.Freeable middle freed.start :=
        .inr ⟨freed, (hkept freed hfreed hstart).1, rfl, hscratch ▸ hne, hnew⟩
      exact hnew'.of_later hmiddle
  obtain ⟨after, hafter, hproceeds', hscratch', hkept'⟩ := free_spec hearlier.buffer hright' hearlier
  refine ⟨after, ?_, hproceeds', hscratch'.trans hscratch, fun hlive => ?_⟩
  · rw [free_copies, hfirst, Option.bind_eq_bind, Option.bind_some, hafter]
  · have hfirst_kept := hkept _ hlive (hleft'.start_ne hlive (.inl rfl))
    have hlater : runtime.scratch.start ≠ right_copy := hright'.start_ne hfirst_kept.1 (.inl hscratch.symm)
    exact hfirst_kept.trans (hkept' _ hfirst_kept.1 hlater)

variable {left right left_copy right_copy : Nat} {left_text right_text : List UInt8}

/-- The operands one after the other, or the empty field where an allocation fails. -/
def Concatenated (runtime after : HeapRuntime) (allocator : Allocator) (pointer : Nat) (text : List UInt8) : Prop :=
  (∃ block, after.memory.Spells block pointer text) ∨ pointer = runtime.QK_EMPTY_FIELD ∧ ¬ allocator.Serves

/-- Where there is no room the copies are freed. -/
theorem give_up_spec {text : List UInt8} (hmiddle : earlier.Proceeds middle) (hproceeds : middle.Proceeds runtime)
    (hleft_copy : middle.Freeable earlier left_copy) (hright_copy : runtime.Freeable middle right_copy)
    (hserves : ¬ allocator.Serves) :
    ∃ pointer after, (do some (runtime.QK_EMPTY_FIELD, ← runtime.free_copies left_copy right_copy)) = some (pointer, after) ∧
      earlier.Proceeds after ∧ Concatenated earlier after allocator pointer text := by
  obtain ⟨after, hafter, hearlier, -⟩ := free_copies_spec hproceeds.buffer hmiddle hproceeds hleft_copy hright_copy
  rw [hafter]
  exact ⟨_, _, rfl, hearlier, .inr ⟨(hmiddle.trans hproceeds).empty_field, hserves⟩⟩

theorem join_operands_spec (allocator : Allocator) (hmiddle : earlier.Proceeds middle) (hproceeds : middle.Proceeds runtime)
    (hleft_copy : middle.Freeable earlier left_copy) (hright_copy : runtime.Freeable middle right_copy)
    (hleft : runtime.Outside left left_text) (hright : runtime.Outside right right_text) :
    ∃ pointer after, runtime.join_operands allocator left right left_copy right_copy = some (pointer, after) ∧
      earlier.Proceeds after ∧ Concatenated earlier after allocator pointer (left_text ++ right_text) := by
  obtain ⟨left_block, hleft_spells, -⟩ := id hleft
  obtain ⟨right_block, hright_spells, -⟩ := id hright
  unfold join_operands qk_store_scratch
  rw [hleft_spells.strlen, hright_spells.strlen]
  simp only [Option.bind_eq_bind, Option.bind_some]
  obtain ⟨grown, stored, hstored, hstored_proceeds, ⟨rfl, hserves⟩ | ⟨rfl, hroom, hstored_buffer⟩⟩ :=
    grow_scratch_spec allocator hproceeds.buffer (by omega : 0 < left_text.length + 1)
  · rw [hstored]
    exact give_up_spec hmiddle (hproceeds.trans hstored_proceeds) hleft_copy (hright_copy.kept hstored_proceeds) hserves
  have hstored_fits : 0 + (left_text.length + 1) ≤ stored.scratch_capacity := by rwa [Nat.zero_add]
  obtain ⟨put, hput, hput_proceeds, -, hput_scratch, hput_bytes⟩ :=
    put_scratch_spec hstored_buffer.live hstored_fits (hleft.kept hstored_proceeds)
  rw [hstored]
  simp only [Option.bind_some, if_true, hput, Bool.not_true, Bool.false_eq_true, if_false]
  obtain ⟨grown, widened, hwidened, hwidened_proceeds, ⟨rfl, hserves⟩ | ⟨rfl, hwide, hwidened_buffer⟩⟩ :=
    grow_scratch_spec allocator hput_proceeds.buffer (by omega : 0 < left_text.length + right_text.length + 1)
  · have hbefore := (hstored_proceeds.trans hput_proceeds).trans hwidened_proceeds
    rw [hwidened]
    exact give_up_spec hmiddle (hproceeds.trans hbefore) hleft_copy (hright_copy.kept hbefore) hserves
  have hbefore := (hstored_proceeds.trans hput_proceeds).trans hwidened_proceeds
  have hwidened_fits : left_text.length + (right_text.length + 1) ≤ widened.scratch_capacity := by rwa [← Nat.add_assoc]
  obtain ⟨joined, hjoined, hjoined_proceeds, hjoined_buffer, hjoined_scratch, hjoined_bytes⟩ :=
    put_scratch_spec hwidened_buffer.live hwidened_fits (hright.kept hbefore)
  have hall := hbefore.trans hjoined_proceeds
  obtain ⟨after, hafter, hearlier, hscratch, hkept⟩ :=
    free_copies_spec hall.buffer hmiddle (hproceeds.trans hall) hleft_copy (hright_copy.kept hall)
  rw [hwidened]
  simp only [Option.bind_some, hjoined, Bool.not_true, Bool.false_eq_true, if_false, hafter]
  -- The text of the left operand stays where it was put, and that of the right operand ends at the byte that ends both.
  have hput_capacity : put.scratch_capacity = stored.scratch_capacity := congrArg Block.size hput_scratch
  have hleft_widened : widened.memory.Contains widened.scratch_buffer left_text :=
    hwidened_buffer.contains (by omega) (Memory.contains_append.mp hput_bytes).1
  have hleft_joined := hjoined_buffer.contains (Nat.le_refl _) hleft_widened
  have hjoined_capacity : joined.scratch_capacity = widened.scratch_capacity := congrArg Block.size hjoined_scratch
  have hspells : joined.memory.Spells joined.scratch joined.scratch_buffer (left_text ++ right_text) := by
    refine ⟨hjoined_buffer.live, Nat.le_refl _, ?_, ?_, ?_⟩
    · rw [List.length_append]
      refine Nat.add_le_add_left ?_ _
      rwa [← hjoined_capacity] at hwide
    · rw [List.append_assoc, Memory.contains_append]
      exact ⟨hleft_joined, hjoined_bytes⟩
    · exact fun hmem => (List.mem_append.mp hmem).elim hleft_spells.unbroken hright_spells.unbroken
  have hpointer : after.scratch_buffer = joined.scratch_buffer := congrArg Block.start hscratch
  exact ⟨_, _, rfl, hearlier, .inl ⟨joined.scratch, hpointer ▸ hspells.kept (hkept hjoined_buffer.live)⟩⟩

/-- An operand is null or points to a text. -/
def Operand (runtime : HeapRuntime) (pointer : Nat) (text : List UInt8) : Prop :=
  pointer = 0 ∧ text = [] ∨ ∃ block, runtime.memory.Spells block pointer text

theorem Operand.spells (h : runtime.Operand pointer text) (hvalid : runtime.Valid) :
    ∃ block, runtime.memory.Spells block (if pointer = 0 then runtime.empty_literal else pointer) text := by
  obtain ⟨rfl, rfl⟩ | ⟨block, hspells⟩ := h
  · obtain ⟨block, hspells, -⟩ := hvalid.empty_literal
    exact ⟨block, by rwa [if_pos rfl]⟩
  · have hpos := runtime.memory.nonnull _ hspells.live
    have hstart := hspells.start_le
    exact ⟨block, by rwa [if_neg (by omega)]⟩

theorem qk_concat_spec (allocator : Allocator) (hvalid : runtime.Valid) (hleft : runtime.Operand left left_text)
    (hright : runtime.Operand right right_text) :
    ∃ pointer after, runtime.qk_concat allocator left right = some (pointer, after) ∧ runtime.Proceeds after ∧
      Concatenated runtime after allocator pointer (left_text ++ right_text) := by
  obtain ⟨left_block, hleft_spells⟩ := hleft.spells hvalid
  obtain ⟨right_block, hright_spells⟩ := hright.spells hvalid
  unfold qk_concat
  generalize (if left = 0 then runtime.empty_literal else left) = left at hleft_spells ⊢
  generalize (if right = 0 then runtime.empty_literal else right) = right at hright_spells ⊢
  dsimp only
  obtain ⟨result, first, hfirst, hfirst_proceeds, hfirst_kept, ⟨rfl, hserves⟩ | ⟨left, left_copy, rfl, hleft_outside, hleft_copy⟩⟩ :=
    copy_operand_spec allocator hvalid.buffer hleft_spells
  · rw [hfirst]
    exact ⟨_, _, rfl, hfirst_proceeds, .inr ⟨hfirst_proceeds.empty_field, hserves⟩⟩
  have hright_first := hright_spells.kept (hfirst_kept _ hright_spells.live)
  obtain ⟨result, second, hsecond, hsecond_proceeds, -, ⟨rfl, hserves⟩ | ⟨right, right_copy, rfl, hright_outside, hright_copy⟩⟩ :=
    copy_operand_spec allocator hfirst_proceeds.buffer hright_first
  · obtain ⟨after, hafter, hproceeds, -⟩ :=
      free_spec hsecond_proceeds.buffer (hleft_copy.kept hsecond_proceeds) (hfirst_proceeds.trans hsecond_proceeds)
    rw [hfirst, Option.bind_eq_bind, Option.bind_some]
    dsimp only
    rw [hsecond, Option.bind_some]
    dsimp only
    rw [hafter]
    exact ⟨_, _, rfl, hproceeds, .inr ⟨(hfirst_proceeds.trans hsecond_proceeds).empty_field, hserves⟩⟩
  · rw [hfirst, Option.bind_eq_bind, Option.bind_some]
    dsimp only
    rw [hsecond, Option.bind_some]
    exact join_operands_spec allocator hfirst_proceeds hsecond_proceeds hleft_copy hright_copy
      (hleft_outside.kept hsecond_proceeds) hright_outside

end HeapRuntime

/-- Wherever the operands point to, the runtime's buffer and each other's text included, the concatenation is without
undefined access the left text and then the right one, if allocations succeed; texts outside the buffer stay. -/
theorem concatenation_under_aliasing (allocator : Allocator) (runtime : HeapRuntime) (hvalid : runtime.Valid)
    (left right : Nat) (left_text right_text : List UInt8) (hleft : runtime.Operand left left_text)
    (hright : runtime.Operand right right_text) :
    ∃ pointer after, runtime.qk_concat allocator left right = some (pointer, after) ∧
      ((∃ block, after.memory.Spells block pointer (left_text ++ right_text)) ∨
        pointer = runtime.QK_EMPTY_FIELD ∧ ¬ allocator.Serves) ∧
      after.Valid ∧ ∀ other text, runtime.Outside other text → after.Outside other text := by
  obtain ⟨pointer, after, hconcat, hproceeds, hresult⟩ := HeapRuntime.qk_concat_spec allocator hvalid hleft hright
  exact ⟨pointer, after, hconcat, hresult, hvalid.kept hproceeds, fun other text h => h.kept hproceeds⟩

/-- An allocator that puts every block behind all others. -/
def bump_allocator : Allocator where
  place memory _ := some (memory.extent + 1)
  fresh memory size start h := by
    obtain rfl := Option.some.inj h
    refine ⟨Nat.succ_pos _, fun block hblock => ?_⟩
    have hstop := Memory.stop_le_extent hblock
    unfold Block.Apart
    unfold Block.stop at hstop ⊢
    dsimp only
    omega

/-- The buffer holds the letters a and b, and behind it is the empty text. -/
def letters_runtime : HeapRuntime where
  memory := {
    blocks := [⟨1, 3⟩, ⟨4, 1⟩]
    bytes := fun address => if address = 1 then 97 else if address = 2 then 98 else 0
    separated := by simp [Block.Apart, Block.stop]
    nonnull := by simp }
  scratch_buffer := 1
  scratch_capacity := 3
  QK_EMPTY_FIELD := 4
  empty_literal := 4

theorem letters_spells (block : Block) (address : Nat) (text : List UInt8) (hblock : block ∈ letters_runtime.memory.blocks)
    (hrange : block.start ≤ address ∧ address + (text.length + 1) ≤ block.stop)
    (hbytes : ∀ index : Fin (text.length + 1),
      (text ++ [0])[index.val]? = some (letters_runtime.memory.bytes (address + index)))
    (hunbroken : 0 ∉ text) : letters_runtime.memory.Spells block address text := by
  refine ⟨hblock, hrange.1, hrange.2, fun index byte hbyte => ?_, hunbroken⟩
  have hindex := (List.getElem?_eq_some_iff.mp hbyte).1
  rw [List.length_append, List.length_singleton] at hindex
  exact Option.some.inj ((hbytes ⟨index, hindex⟩).symm.trans hbyte)

/-- The concatenation of the buffer and of its last letter, where the buffer is too small for both. -/
theorem concatenation_under_aliasing_letters : ∃ pointer after,
    letters_runtime.qk_concat bump_allocator 1 2 = some (pointer, after) ∧
      ((∃ block, after.memory.Spells block pointer [97, 98, 98]) ∨ pointer = 4 ∧ ¬ bump_allocator.Serves) := by
  have hempty : letters_runtime.Outside 4 [] := ⟨⟨4, 1⟩,
    letters_spells _ _ _ (by decide) (by decide) (by decide) (by decide), by decide⟩
  have hvalid : letters_runtime.Valid := ⟨.inr (by decide), hempty, hempty⟩
  have hleft : letters_runtime.memory.Spells ⟨1, 3⟩ 1 [97, 98] := letters_spells _ _ _ (by decide) (by decide) (by decide) (by decide)
  have hright : letters_runtime.memory.Spells ⟨1, 3⟩ 2 [98] := letters_spells _ _ _ (by decide) (by decide) (by decide) (by decide)
  obtain ⟨pointer, after, hconcat, hresult, -⟩ := concatenation_under_aliasing bump_allocator letters_runtime hvalid 1 2
    [97, 98] [98] (.inr ⟨_, hleft⟩) (.inr ⟨_, hright⟩)
  exact ⟨pointer, after, hconcat, hresult⟩

end quawk
