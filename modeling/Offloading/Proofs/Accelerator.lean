import Offloading.Accelerator
import Offloading.Proofs.DeviceMemory
import Offloading.Proofs.Execution
/-!
# Accelerator calls

What a call that succeeds did to the memory of its device, and what every call keeps, whether it
succeeds or not: memories stay well-formed, and only allocating, freeing and loading change where
blocks lie. Kernels are no exception, since device code neither allocates nor frees.
-/

namespace Offloading

namespace DeviceCode

variable {α : Type} {m : DeviceMemory}

theorem layout_run (code : DeviceCode α) (m : DeviceMemory) :
    (code.run m).memory.layout = m.layout := by
  induction code generalizing m with
  | done value => rfl
  | read addr size next ih => exact ih _ m
  | write addr content next ih =>
      cases hw : m.write addr content with
      | error e =>
          rw [run, hw]
          exact ih _ m
      | ok m' =>
          rw [run, hw]
          exact (ih _ m').trans (DeviceMemory.layout_write hw)
  | report line next ih => exact ih m

theorem wellFormed_run (code : DeviceCode α) (h : m.WellFormed) :
    (code.run m).memory.WellFormed := by
  induction code generalizing m with
  | done value => exact h
  | read addr size next ih => exact ih _ h
  | write addr content next ih =>
      cases hw : m.write addr content with
      | error e =>
          rw [run, hw]
          exact ih _ h
      | ok m' =>
          rw [run, hw]
          exact ih _ (h.write hw)
  | report line next ih => exact ih h

end DeviceCode

namespace Accelerator

variable {a a' : Accelerator} {unit : Int} {m m' : DeviceMemory}

/-- All memories are well-formed. -/
def WellFormed (a : Accelerator) : Prop := ∀ m ∈ a.memories, m.WellFormed

/-- Where the blocks of all memories lie. -/
def layouts (a : Accelerator) : List (Nat × Nat × Nat × List (Nat × Nat)) :=
  a.memories.map DeviceMemory.layout

/-- The accelerator with another memory for a device. -/
def withMemory (a : Accelerator) (unit : Int) (m : DeviceMemory) : Accelerator :=
  { a with memories := a.memories.set unit.toNat m }

/-- The accelerator when one more thing was done for a device. -/
def noted (a : Accelerator) (unit : Int) (service : Service) : Accelerator :=
  { a with services := a.services ++ [(unit, service)] }

theorem memory?_ofNat (i : Nat) : a.memory? i = a.memories[i]? := by
  change (if i < a.memories.length then some i else none).bind _ = _
  by_cases hi : i < a.memories.length
  · rw [if_pos hi, Option.bind_some]
  · rw [if_neg hi, Option.bind_none, List.getElem?_eq_none (by omega)]

theorem memory?_eq_some_iff :
    a.memory? unit = some m ↔ ∃ i : Nat, unit = i ∧ a.memories[i]? = some m := by
  constructor
  · intro h
    cases unit with
    | ofNat i => exact ⟨i, rfl, memory?_ofNat i ▸ h⟩
    | negSucc i => cases h
  · rintro ⟨i, rfl, h⟩
    rw [memory?_ofNat, h]

theorem memory?_congr (h : a'.memories = a.memories) : a'.memory? unit = a.memory? unit := by
  apply Option.ext fun m => ?_
  rw [memory?_eq_some_iff, memory?_eq_some_iff, h]

/-- A memory has another one in its place where all layouts are the same. -/
theorem memory?_of_layouts (h : a'.layouts = a.layouts) (hm : a'.memory? unit = some m') :
    ∃ m, a.memory? unit = some m ∧ m.layout = m'.layout := by
  obtain ⟨i, rfl, hi⟩ := memory?_eq_some_iff.1 hm
  have found : a.layouts[i]? = some m'.layout := by
    rw [← h, layouts, List.getElem?_map, hi, Option.map_some]
  rw [layouts, List.getElem?_map] at found
  obtain ⟨m, hm', same⟩ := Option.map_eq_some_iff.1 found
  exact ⟨m, memory?_eq_some_iff.2 ⟨i, rfl, hm'⟩, same⟩

theorem mem_of_memory? (h : a.memory? unit = some m) : m ∈ a.memories := by
  obtain ⟨i, -, hi⟩ := memory?_eq_some_iff.1 h
  exact List.mem_of_getElem? hi

theorem WellFormed.memory (h : a.WellFormed) (hm : a.memory? unit = some m) : m.WellFormed :=
  h m (mem_of_memory? hm)

theorem memory?_withMemory (h : a.memory? unit = some m) :
    (a.withMemory unit m').memory? unit = some m' := by
  obtain ⟨i, rfl, hi⟩ := memory?_eq_some_iff.1 h
  obtain ⟨lt, -⟩ := List.getElem?_eq_some_iff.1 hi
  refine memory?_eq_some_iff.2 ⟨i, rfl, ?_⟩
  simp [withMemory, lt]

theorem WellFormed.withMemory (h : a.WellFormed) (hm : m.WellFormed) :
    (a.withMemory unit m).WellFormed := by
  intro n hn
  rcases List.mem_or_eq_of_mem_set hn with hn | rfl
  · exact h n hn
  · exact hm

/-- No memory of a fresh accelerator holds a block. -/
theorem wellFormed_ofDevices {n capacity : Nat}
    (h : a.memories = (ofDevices n capacity).memories) : a.WellFormed := by
  intro m hm
  rw [h] at hm
  obtain ⟨i, -, rfl⟩ := List.mem_map.1 hm
  exact DeviceMemory.wellFormed_empty _ capacity

/-- A view of the items of a list does not see that one of them is replaced by another one that looks
the same. -/
theorem map_set_of_same {γ β : Type} {view : γ → β} {items : List γ} {i : Nat} {x y : γ}
    (hx : items[i]? = some x) (same : view y = view x) :
    (items.set i y).map view = items.map view := by
  obtain ⟨lt, rfl⟩ := List.getElem?_eq_some_iff.1 hx
  rw [List.map_set, same]
  apply List.ext_getElem? fun j => ?_
  rw [List.getElem?_set]
  by_cases hj : i = j
  · subst hj
    simp [lt]
  · simp [hj]

/-- A view of the memories does not see a change that the view of the changed memory does not. -/
theorem map_withMemory {β : Type} {view : DeviceMemory → β} (h : a.memory? unit = some m)
    (same : view m' = view m) : (a.withMemory unit m').memories.map view = a.memories.map view := by
  obtain ⟨i, rfl, hi⟩ := memory?_eq_some_iff.1 h
  exact map_set_of_same hi same

/-! ## Calls that succeed -/

section Returns

variable {β : Type} {b : β} {u : Unit} {c : Chunk} {content : List UInt8} {addr size : Nat}

theorem returns_attempt_bind {call : CallKind} {f : Unit → AcceleratorM β}
    (h : Returns (attempt call >>= f) a b a') :
    Returns (f ()) { a with calls := a.calls.add call } b a' := by
  obtain ⟨_, a₁, hc, hf⟩ := returns_bind.1 h
  rw [attempt, returns_get_bind, returns_bind] at hc
  obtain ⟨_, a₂, hs, hc⟩ := hc
  cases hs
  split at hc
  · exact absurd hc not_returns_throw
  · obtain ⟨rfl, rfl⟩ := returns_pure.1 hc
    exact hf

theorem returns_memory_bind {f : DeviceMemory → AcceleratorM β} :
    Returns (memory unit >>= f) a b a' ↔
      ∃ m, a.memory? unit = some m ∧ Returns (f m) a b a' := by
  rw [memory]
  constructor
  · intro h
    obtain ⟨m, a₁, hm, hf⟩ := returns_bind.1 h
    rw [returns_get_bind] at hm
    split at hm
    · rename_i found
      obtain ⟨rfl, rfl⟩ := returns_pure.1 hm
      exact ⟨m, found, hf⟩
    · exact absurd hm not_returns_throw
  · rintro ⟨m, found, hf⟩
    refine returns_bind.2 ⟨m, a, ?_, hf⟩
    rw [returns_get_bind, found]
    exact returns_pure.2 ⟨rfl, rfl⟩

theorem returns_setMemory_bind {f : Unit → AcceleratorM β} :
    Returns (setMemory unit m >>= f) a b a' ↔ Returns (f ()) (a.withMemory unit m) b a' := Iff.rfl

theorem returns_store (h : Returns (store unit c) a u a') :
    ∃ m m', a.memory? unit = some m ∧ m.write c.target c.content = .ok m' ∧
      a' = a.withMemory unit m' := by
  rw [store, returns_memory_bind] at h
  obtain ⟨m, found, h⟩ := h
  split at h
  · rename_i m' hw
    exact ⟨m, m', found, hw, returns_modify.1 h⟩
  · exact absurd h not_returns_throw

/-- What succeeds is remembered afterwards. -/
theorem returns_noting {service : Service} {x : AcceleratorM β} :
    Returns (noting unit service x) a b a' ↔ ∃ a₁, Returns x a b a₁ ∧ a' = a₁.noted unit service := by
  rw [noting, returns_bind]
  constructor
  · rintro ⟨_, a₁, ran, last⟩
    obtain ⟨rfl, rfl⟩ := returns_pure.1 last
    exact ⟨a₁, ran, rfl⟩
  · rintro ⟨a₁, ran, rfl⟩
    exact ⟨b, a₁, ran, rfl⟩

theorem returns_send (h : Returns (send unit c) a u a') :
    ∃ m m', a.memory? unit = some m ∧ m.write c.target c.content = .ok m' ∧
      a'.memories = (a.withMemory unit m').memories := by
  obtain ⟨m, m', found, hw, rfl⟩ := returns_store (returns_attempt_bind h)
  exact ⟨m, m', found, hw, rfl⟩

theorem returns_submit (h : Returns (submit unit c) a u a') :
    ∃ m m', a.memory? unit = some m ∧ m.write c.target c.content = .ok m' ∧
      a'.memories = (a.withMemory unit m').memories := by
  obtain ⟨a₁, sent, rfl⟩ := returns_noting.1 h
  obtain ⟨m, m', found, hw, memories⟩ := returns_send sent
  exact ⟨m, m', found, hw, memories⟩

theorem returns_retrieve (h : Returns (retrieve unit addr size) a content a') :
    ∃ m, a.memory? unit = some m ∧ m.read addr size = .ok content ∧ a'.memories = a.memories := by
  obtain ⟨a₁, ran, rfl⟩ := returns_noting.1 h
  have h := returns_attempt_bind ran
  rw [returns_memory_bind] at h
  obtain ⟨m, found, h⟩ := h
  split at h
  · rename_i read
    obtain ⟨rfl, rfl⟩ := returns_pure.1 h
    exact ⟨m, found, read, rfl⟩
  · exact absurd h not_returns_throw

theorem returns_allocate (h : Returns (allocate unit size) a addr a') :
    ∃ m m', a.memory? unit = some m ∧ m.allocate size = (some addr, m') ∧
      a'.memories = (a.withMemory unit m').memories := by
  have h := returns_attempt_bind h
  rw [returns_memory_bind] at h
  obtain ⟨m, found, h⟩ := h
  rw [returns_setMemory_bind] at h
  split at h
  · rename_i place
    obtain ⟨rfl, rfl⟩ := returns_pure.1 h
    exact ⟨m, _, found, Prod.ext place rfl, rfl⟩
  · exact absurd h not_returns_throw

/-- A release that succeeds is not remembered. -/
theorem returns_delete_iff : Returns (delete unit addr) a u a' ↔ Returns (release unit addr) a u a' := by
  unfold delete Returns
  rw [exec_tryCatch]
  rcases exec (release unit addr) a with ⟨_ | _, _⟩
  · constructor
    · intro h
      cases h
    · intro h
      cases h
  · exact Iff.rfl

theorem returns_delete (h : Returns (delete unit addr) a u a') :
    ∃ m m', a.memory? unit = some m ∧ m.free addr = (true, m') ∧
      a'.memories = (a.withMemory unit m').memories := by
  have h := returns_delete_iff.1 h
  rw [release, note, returns_modify_bind] at h
  have h := returns_attempt_bind h
  rw [returns_memory_bind] at h
  obtain ⟨m, found, h⟩ := h
  rw [returns_setMemory_bind] at h
  cases freed : (m.free addr).1 with
  | true =>
      rw [freed] at h
      obtain ⟨-, rfl⟩ := returns_pure.1 h
      exact ⟨m, _, found, Prod.ext freed rfl, rfl⟩
  | false =>
      rw [freed] at h
      exact absurd h not_returns_throw

/-- A memory after all chunks were stored in order. -/
def storeAll (m : DeviceMemory) : List Chunk → Except AccessError DeviceMemory
  | [] => .ok m
  | c :: rest => (m.write c.target c.content).bind fun m' => storeAll m' rest

theorem storeAll_cons {rest : List Chunk} :
    storeAll m (c :: rest) = .ok m' ↔
      ∃ n, m.write c.target c.content = .ok n ∧ storeAll n rest = .ok m' := by
  rw [storeAll]
  cases m.write c.target c.content with
  | error e =>
      constructor
      · intro h
        cases h
      · rintro ⟨n, h, -⟩
        cases h
  | ok n =>
      constructor
      · intro h
        exact ⟨n, rfl, h⟩
      · rintro ⟨_, h, stored⟩
        cases h
        exact stored

theorem withMemory_self (h : a.memory? unit = some m) : a.withMemory unit m = a := by
  obtain ⟨i, rfl, hi⟩ := memory?_eq_some_iff.1 h
  obtain ⟨lt, rfl⟩ := List.getElem?_eq_some_iff.1 hi
  simp [withMemory]

theorem withMemory_withMemory :
    ((a.withMemory unit m).withMemory unit m').memories = (a.withMemory unit m').memories :=
  List.set_set ..

/-- Chunks that are stored one by one are all stored. -/
private theorem returns_each {x : Chunk → AcceleratorM Unit}
    (hx : ∀ {a a' : Accelerator} {c : Chunk} {u : Unit}, Returns (x c) a u a' →
      ∃ m m', a.memory? unit = some m ∧ m.write c.target c.content = .ok m' ∧
        a'.memories = (a.withMemory unit m').memories)
    {chunks : List Chunk} (hm : a.memory? unit = some m) (h : Returns (chunks.forM x) a u a') :
    ∃ m', storeAll m chunks = .ok m' ∧ a'.memories = (a.withMemory unit m').memories := by
  induction chunks generalizing a m with
  | nil =>
      obtain ⟨-, rfl⟩ := returns_pure.1 h
      exact ⟨m, rfl, by rw [withMemory_self hm]⟩
  | cons c rest ih =>
      obtain ⟨_, a₁, hc, hrest⟩ := returns_bind.1 h
      obtain ⟨n, n', found, hw, memories⟩ := hx hc
      rw [hm, Option.some.injEq] at found
      subst found
      have hm₁ : a₁.memory? unit = some n' := by
        rw [memory?_congr memories]
        exact memory?_withMemory hm
      obtain ⟨m', stored, after⟩ := ih hm₁ hrest
      refine ⟨m', storeAll_cons.2 ⟨n', hw, stored⟩, ?_⟩
      rw [after, withMemory, memories]
      exact withMemory_withMemory

/-- A batch stores all its chunks. An empty one may not even look for the memory. -/
theorem returns_submitBatch {chunks : List Chunk} (h : Returns (submitBatch unit chunks) a u a') :
    (chunks = [] ∧ a'.memories = a.memories) ∨
      ∃ m m', a.memory? unit = some m ∧ storeAll m chunks = .ok m' ∧
        a'.memories = (a.withMemory unit m').memories := by
  obtain ⟨a₁, ran, rfl⟩ := returns_noting.1 h
  clear h
  have h := returns_get_bind.1 ran
  split at h
  · have h := returns_attempt_bind h
    rw [returns_memory_bind] at h
    obtain ⟨m, hm, h⟩ := h
    obtain ⟨_, a₁, hs, hl⟩ := returns_bind.1 h
    have stored : ∀ {a a' : Accelerator} {c : Chunk} {u : Unit}, Returns (store unit c) a u a' →
        ∃ m m', a.memory? unit = some m ∧ m.write c.target c.content = .ok m' ∧
          a'.memories = (a.withMemory unit m').memories := by
      intro a a' c u hc
      obtain ⟨n, n', found, hw, rfl⟩ := returns_store hc
      exact ⟨n, n', found, hw, rfl⟩
    obtain ⟨m', all, memories⟩ :=
      returns_each (a := { a with calls := a.calls.add .batch }) stored hm hs
    have := returns_modify.1 hl
    subst this
    exact .inr ⟨m, m', hm, all, memories⟩
  · cases chunks with
    | nil =>
        obtain ⟨-, rfl⟩ := returns_pure.1 h
        exact .inl ⟨rfl, rfl⟩
    | cons c rest =>
        obtain ⟨_, hc, -⟩ := returns_forM_cons.1 h
        obtain ⟨m, -, hm, -⟩ := returns_send hc
        obtain ⟨m', all, memories⟩ := returns_each returns_send hm h
        exact .inr ⟨m, m', hm, all, memories⟩

private theorem returns_outcome {o : Except KernelError Unit}
    (h : Returns (match o with
      | .ok () => pure ()
      | .error e => throw (.kernel e) : AcceleratorM Unit) a u a') : a' = a := by
  cases o with
  | ok _ => exact (returns_pure.1 h).2
  | error e => exact absurd h not_returns_throw

/-- A launch leaves the memory of its device as its kernel left it. -/
theorem returns_run {entry tripCount : Nat} {arguments : List Nat} {offsets : List Int}
    {kind : LaunchKind} (h : Returns (run unit entry arguments offsets kind tripCount) a u a') :
    ∃ (m : DeviceMemory) (code : DeviceCode (Except KernelError Unit)),
      a.memory? unit = some m ∧ a'.memories = (a.withMemory unit (code.run m).memory).memories := by
  obtain ⟨a₁, ran, rfl⟩ := returns_noting.1 h
  have h := returns_attempt_bind ran
  dsimp only at h
  by_cases lengths : arguments.length ≠ offsets.length
  · rw [if_pos lengths] at h
    exact absurd h not_returns_throw_bind
  rw [if_neg lengths, returns_get_bind] at h
  cases hk : kernelAt? { a with calls := a.calls.add .run } entry with
  | none =>
      rw [hk] at h
      exact absurd h not_returns_throw
  | some kernel =>
      rw [hk] at h
      dsimp only at h
      rw [returns_memory_bind] at h
      obtain ⟨m, found, h⟩ := h
      rw [returns_setMemory_bind, returns_modify_bind] at h
      have := returns_outcome h
      subst this
      exact ⟨m, _, found, rfl⟩

end Returns

/-! ## What all calls keep -/

/-- The memories do not change, and no release fails. -/
abbrev SameMemories : Accelerator → Accelerator → Prop :=
  Fixed fun a => (a.memories, a.failedReleases)

/-- Besides, nothing was done that is remembered. -/
abbrev Quiet : Accelerator → Accelerator → Prop :=
  Fixed fun a => (a.memories, a.failedReleases, a.services)

/-- The relation sees neither that calls are counted nor what is remembered for the device. -/
structure Overlooks (unit : Int) (R : Accelerator → Accelerator → Prop) : Prop where
  quiet : ∀ {a a' : Accelerator}, a.Quiet a' → R a a'
  noted : ∀ (a : Accelerator) (service : Service), R a (a.noted unit service)

theorem Quiet.sameMemories (h : a.Quiet a') : a.SameMemories a' :=
  Prod.ext (Prod.mk.inj h).1 (Prod.mk.inj (Prod.mk.inj h).2).1

theorem overlooks_of_memories {R : Accelerator → Accelerator → Prop}
    (same : ∀ {a a' : Accelerator}, a.SameMemories a' → R a a') : Overlooks unit R where
  quiet h := same h.sameMemories
  noted _ _ := same rfl

theorem along_attempt (call : CallKind) : Along Quiet (attempt call) := by
  refine Along.bind_get fun a => ?_
  refine Along.bind_at (x := set _) (by rfl) fun _ => Along.ite Along.throw Along.pure

section along

variable {β : Type} {R : Accelerator → Accelerator → Prop} [Lasting R]

/-- A step on the memory of a device may use what that memory is. -/
theorem along_memory_bind {f : DeviceMemory → AcceleratorM β}
    (hf : ∀ a m, a.memory? unit = some m → R a (exec (f m) a).2) : Along R (memory unit >>= f) := by
  intro a
  cases hm : a.memory? unit with
  | none =>
      have : exec (memory unit) a = (.error (.noSuchDevice unit), a) := by
        rw [memory, exec_bind, exec_get]
        simp only [hm, exec_throw]
      rw [exec_bind_error this]
      exact Lasting.refl a
  | some m =>
      have : exec (memory unit) a = (.ok m, a) := by
        rw [memory, exec_bind, exec_get]
        simp only [hm, exec_pure]
      rw [exec_bind_ok this]
      exact hf a m hm

omit [Lasting R] in
theorem along_note (overlooks : Overlooks unit R) {service : Service} : Along R (note unit service) :=
  Along.modify fun a => overlooks.noted a service

/-- The call moves the accelerator along `R` and remembers the service if it succeeds. -/
def Notes (R : Accelerator → Accelerator → Prop) (unit : Int) (service : Service)
    (x : AcceleratorM β) : Prop :=
  ∃ y, Along R y ∧ x = noting unit service y

theorem Notes.along (overlooks : Overlooks unit R) {service : Service} {x : AcceleratorM β}
    (h : Notes R unit service x) : Along R x := by
  obtain ⟨y, hy, rfl⟩ := h
  exact hy.bind fun _ => (along_note overlooks).bind fun _ => Along.pure

section quiet

variable (quiet : ∀ {a a' : Accelerator}, a.Quiet a' → R a a')

include quiet

theorem along_attempt_bind {call : CallKind} {f : Unit → AcceleratorM β}
    (hf : Along R (f ())) : Along R (attempt call >>= f) :=
  ((along_attempt call).mono quiet).bind fun _ => hf

theorem along_initialise : Along R (initialise unit) :=
  along_attempt_bind quiet (along_memory_bind fun _ _ _ => quiet rfl)

theorem notes_retrieve {addr size : Nat} :
    Notes R unit (.retrieved size) (retrieve unit addr size) := by
  refine ⟨_, along_attempt_bind quiet (along_memory_bind fun a m _ => ?_), rfl⟩
  split
  · exact Lasting.refl a
  · exact Lasting.refl a

section write

variable (write : ∀ {a : Accelerator} {m m' : DeviceMemory} {addr : Nat} {content : List UInt8},
  a.memory? unit = some m → m.write addr content = .ok m' → R a (a.withMemory unit m'))

include write

omit quiet in
theorem along_store {c : Chunk} : Along R (store unit c) := by
  refine along_memory_bind fun a m hm => ?_
  cases h : m.write c.target c.content with
  | ok m' => exact write hm h
  | error e => exact Lasting.refl a

theorem along_send {c : Chunk} : Along R (send unit c) :=
  along_attempt_bind quiet (along_store write)

theorem notes_submit {c : Chunk} :
    Notes R unit (.submitted c.content.length) (submit unit c) :=
  ⟨_, along_send quiet write, rfl⟩

theorem notes_submitBatch {chunks : List Chunk} :
    Notes R unit (.batched (Chunk.totalLength chunks)) (submitBatch unit chunks) := by
  refine ⟨_, Along.get.bind fun a => Along.ite ?_ ?_, rfl⟩
  · refine along_attempt_bind quiet (along_memory_bind fun a _ _ => ?_)
    refine Along.bind_at (Along.forM (g := store unit) (fun _ => along_store write) chunks a) ?_
    exact fun _ => Along.modify fun _ => quiet rfl
  · exact Along.forM (fun _ => along_send quiet write) chunks

end write

theorem notes_run {entry tripCount : Nat} {arguments : List Nat} {offsets : List Int}
    {kind : LaunchKind}
    (ran : ∀ {a : Accelerator} {m : DeviceMemory} (code : DeviceCode (Except KernelError Unit)),
      a.memory? unit = some m → R a (a.withMemory unit (code.run m).memory)) :
    Notes R unit (.ran entry) (run unit entry arguments offsets kind tripCount) := by
  refine ⟨_, along_attempt_bind quiet ?_, rfl⟩
  refine Along.ite (Along.throw.bind fun _ => ?_) ?_
  all_goals
    refine Along.get.bind fun a => ?_
    cases a.kernelAt? entry with
    | none => exact Along.throw
    | some kernel =>
        refine along_memory_bind fun a m hm => ?_
        refine Along.bind_at (R := R) (x := setMemory _ _) (ran _ hm) fun _ => ?_
        refine Along.bind (R := R) (Along.modify fun _ => quiet rfl) fun _ => ?_
        split
        · exact Along.pure
        · exact Along.throw

end quiet

end along

/-- The contents of blocks may change, but not where blocks lie. -/
structure Rewritten (a a' : Accelerator) : Prop where
  wellFormed : a.WellFormed → a'.WellFormed
  layouts : a'.layouts = a.layouts
  failedReleases : a'.failedReleases = a.failedReleases

instance : Lasting Rewritten where
  refl _ := ⟨id, rfl, rfl⟩
  trans h h' := ⟨fun ha => h'.wellFormed (h.wellFormed ha), h'.layouts.trans h.layouts,
    h'.failedReleases.trans h.failedReleases⟩

theorem rewritten_of_memories (h : a.SameMemories a') : a.Rewritten a' := by
  obtain ⟨memories, failedReleases⟩ := Prod.mk.inj h
  refine ⟨fun ha m hm => ha m (memories ▸ hm), ?_, failedReleases⟩
  rw [layouts, layouts, memories]

theorem Quiet.rewritten (h : a.Quiet a') : a.Rewritten a' := rewritten_of_memories h.sameMemories

theorem Quiet.wellFormed (h : a.Quiet a') : Kept WellFormed a a' := h.rewritten.wellFormed

theorem overlooks_rewritten : Overlooks unit Rewritten := overlooks_of_memories rewritten_of_memories

theorem overlooks_wellFormed : Overlooks unit (Kept WellFormed) :=
  overlooks_of_memories fun h => (rewritten_of_memories h).wellFormed

theorem rewritten_withMemory (hm : a.memory? unit = some m) (same : m'.layout = m.layout)
    (keeps : m.WellFormed → m'.WellFormed) : a.Rewritten (a.withMemory unit m') :=
  ⟨fun ha => ha.withMemory (keeps (ha.memory hm)), map_withMemory hm same, rfl⟩

theorem rewritten_write {addr : Nat} {content : List UInt8} (hm : a.memory? unit = some m)
    (hw : m.write addr content = .ok m') : a.Rewritten (a.withMemory unit m') :=
  rewritten_withMemory hm (DeviceMemory.layout_write hw) fun h => h.write hw

theorem rewritten_code (code : DeviceCode (Except KernelError Unit))
    (hm : a.memory? unit = some m) : a.Rewritten (a.withMemory unit (code.run m).memory) :=
  rewritten_withMemory hm (DeviceCode.layout_run code m) (DeviceCode.wellFormed_run code)

theorem along_allocate {size : Nat} : Along (Kept WellFormed) (allocate unit size) := by
  refine along_attempt_bind Quiet.wellFormed ?_
  refine along_memory_bind fun a m hm => ?_
  refine Along.bind_at (x := setMemory _ _) ?_ fun _ => ?_
  · exact fun ha => ha.withMemory ((ha.memory hm).allocate size)
  · split
    · exact Along.pure
    · exact Along.throw

theorem along_delete {addr : Nat} : Along (Kept WellFormed) (delete unit addr) := by
  refine Along.tryCatch ?_ fun _ => Along.bind (Along.modify fun _ h => h) fun _ => Along.throw
  refine Along.bind (along_note overlooks_wellFormed) fun _ => ?_
  refine along_attempt_bind Quiet.wellFormed ?_
  refine along_memory_bind fun a m hm => ?_
  refine Along.bind_at (x := setMemory _ _) ?_ fun _ => Along.ite Along.pure Along.throw
  exact fun ha => ha.withMemory ((ha.memory hm).free addr)

theorem along_loadSymbol {s : Symbol} : Along (Kept WellFormed) (loadSymbol unit s) := by
  refine Along.ite ?_ ?_
  · refine along_memory_bind fun a m hm => ?_
    refine Along.bind_at (x := setMemory _ _) ?_ fun _ => ?_
    · exact fun ha => ha.withMemory ((ha.memory hm).allocate s.size)
    · split
      · exact (along_note overlooks_wellFormed).bind fun _ => Along.pure
      · exact Along.throw
  · refine Along.get.bind fun a => ?_
    split
    · exact Along.pure
    · exact Along.throw

theorem along_load {image : Image} : Along (Kept WellFormed) (load unit image) :=
  along_attempt_bind Quiet.wellFormed
    (Along.mapM (fun _ => along_loadSymbol) image)

end Accelerator

end Offloading
