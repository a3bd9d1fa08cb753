import Offloading.Device.Upload
import Offloading.Proofs.MappingLife
/-!
# Blocks of a launch

A launch makes blocks of its own and fills them, one behind the other and behind all that was there
before. Until they are freed, all other blocks stay as they are.
-/

namespace Offloading

namespace DeviceMemory

variable {m m₁ m' : DeviceMemory} {b : Block} {made made' : List Block} {addr size : Nat}
  {content : List UInt8}

/-- Writing over the beginning of zeros leaves the rest of them. -/
theorem overwrite_zeros (size : Nat) (content : List UInt8) :
    overwrite (List.replicate size 0) 0 content = content.rightpad size 0 := by
  simp [overwrite, List.rightpad, List.drop_replicate]

/-- The blocks of `made` were allocated one after the other and filled, and all others are as they were. -/
structure Furnished (made : List Block) (m m' : DeviceMemory) : Prop where
  wellFormed : m'.WellFormed
  next : m.next ≤ m'.next
  old : ∀ b ∈ m.blocks, b ∈ m'.blocks
  new : ∀ b ∈ made, b ∈ m'.blocks ∧ m.next ≤ b.start
  apart : made.Pairwise fun b c => b.start + b.bytes.length < c.start

theorem Furnished.trans (h : m.Furnished made m₁) (h' : m₁.Furnished made' m') :
    m.Furnished (made ++ made') m' where
  wellFormed := h'.wellFormed
  next := Nat.le_trans h.next h'.next
  old b hb := h'.old b (h.old b hb)
  new b hb := by
    rcases List.mem_append.1 hb with hb | hb
    · exact ⟨h'.old b (h.new b hb).1, (h.new b hb).2⟩
    · exact ⟨(h'.new b hb).1, Nat.le_trans h.next (h'.new b hb).2⟩
  apart := by
    refine List.pairwise_append.2 ⟨h.apart, h'.apart, fun b hb c hc => ?_⟩
    exact Nat.lt_of_lt_of_le (h.wellFormed.below b (h.new b hb).1) (h'.new c hc).2

theorem furnished_allocate (wf : m.WellFormed) (ha : m.allocate size = (some addr, m')) :
    m.Furnished [⟨addr, List.replicate (max size 1) 0⟩] m' := by
  have wf' : m'.WellFormed := by
    have := wf.allocate size
    rwa [ha] at this
  obtain ⟨rfl, rfl⟩ := allocate_eq_some ha
  refine ⟨wf', Nat.le_add_right _ _, fun b hb => ?_, fun b hb => ?_, List.pairwise_singleton ..⟩
  · exact AddressMap.mem_insert.2 (.inr ⟨hb, Nat.ne_of_lt (wf.start_lt hb)⟩)
  · rw [List.mem_singleton.1 hb]
    exact ⟨AddressMap.mem_insert_self, Nat.le_refl _⟩

/-- The block that was made last may be filled. -/
theorem Furnished.fill (h : m.Furnished [b] m₁) (wf : m.WellFormed) (fits : content.length ≤ b.bytes.length)
    (hw : m₁.write b.start content = .ok m') :
    m.Furnished [{ b with bytes := overwrite b.bytes 0 content }] m' := by
  obtain ⟨here, above⟩ := h.new b List.mem_cons_self
  have wf' := h.wellFormed.write hw
  have length : (overwrite b.bytes 0 content).length = b.bytes.length := length_overwrite (by omega)
  have same := layout_write hw
  simp only [layout, Prod.mk.injEq] at same
  obtain ⟨next, -, -, extents⟩ := same
  refine ⟨wf', next ▸ h.next, fun c hc => ?_, fun c hc => ?_, List.pairwise_singleton ..⟩
  · -- the older blocks end before this one begins
    have below := wf.below c hc
    refine wf'.mem_blocks_iff.2 ⟨extents ▸ mem_extents.2 ⟨c, h.old c hc, rfl⟩, fun i hi => ?_⟩
    rw [h.wellFormed.byte?_write hw, if_neg (by omega),
      h.wellFormed.byte?_eq (h.old c hc) (by omega) (by omega), Nat.add_sub_cancel_left]
  · rw [List.mem_singleton.1 hc]
    refine ⟨wf'.mem_blocks_iff.2 ⟨?_, fun i hi => ?_⟩, above⟩
    · rw [extents, length]
      exact mem_extents.2 ⟨b, here, rfl⟩
    · simp only [length] at hi ⊢
      rw [h.wellFormed.byte?_write hw, getElem?_overwrite (by omega), Nat.add_sub_cancel_left, Nat.sub_zero,
        h.wellFormed.byte?_eq here (by omega) (by omega), Nat.add_sub_cancel_left]
      by_cases inside : i < content.length
      · rw [if_pos (by omega), if_pos (by omega)]
      · rw [if_neg (by omega), if_neg (by omega)]

end DeviceMemory

namespace Link

variable {l l₁ l' : Link} {made made' : List Block} {b : Block} {m m' : DeviceMemory}

/-- The device has the blocks of `made` besides those it had before. Nothing else changed but what is
counted. -/
structure Furnished (made : List Block) (l l' : Link) : Prop where
  moved : l.Moved l'
  memory : (made = [] ∧ l'.memory? = l.memory?) ∨
    ∃ m m', l.memory? = some m ∧ l'.memory? = some m' ∧ m.Furnished made m'

theorem Furnished.mappings (h : l.Furnished made l') : l'.device.mappings = l.device.mappings := by
  obtain ⟨_, _, device⟩ := h.moved.device
  rw [device]

theorem Furnished.trans (h : l.Furnished made l₁) (h' : l₁.Furnished made' l') :
    l.Furnished (made ++ made') l' := by
  refine ⟨Lasting.trans h.moved h'.moved, ?_⟩
  rcases h.memory with ⟨rfl, same⟩ | ⟨m, m₁, before, between, first⟩
  · rw [List.nil_append, ← same]
    exact h'.memory
  · rcases h'.memory with ⟨rfl, same⟩ | ⟨k, m', between', after, second⟩
    · rw [List.append_nil]
      exact .inr ⟨m, m₁, before, same.trans between, first⟩
    · rw [between, Option.some.injEq] at between'
      subst between'
      exact .inr ⟨m, m', before, after, first.trans second⟩

end Link

namespace Device

open DeviceM

variable {l l₁ l' : Link} {addr target size : Nat} {content : List UInt8} {u : Unit}

theorem furnished_allocate (wf : l.accelerator.WellFormed) (h : Returns (allocate size) l addr l') :
    l.Furnished [⟨addr, List.replicate (max size 1) 0⟩] l' := by
  obtain ⟨m, m', before, allocated, wrote⟩ := returns_allocate h
  refine ⟨along_allocate.returns h, .inr ⟨m, m', before, wrote.memory? before, ?_⟩⟩
  exact DeviceMemory.furnished_allocate (wf.memory before) allocated

/-- What is sent to a block of zeros that was just made fills its beginning. -/
theorem furnished_submit (wf : l.accelerator.WellFormed) (fits : content.length ≤ size)
    (made : l.Furnished [⟨addr, List.replicate size 0⟩] l₁) (sent : Returns (submit addr content) l₁ u l') :
    l.Furnished [⟨addr, content.rightpad size 0⟩] l' := by
  refine ⟨Lasting.trans made.moved (along_submit.returns sent).toMoved, ?_⟩
  rcases made.memory with ⟨none, -⟩ | ⟨m, m₁, before, between, furnished⟩
  · cases none
  · rw [← DeviceMemory.overwrite_zeros]
    rcases returns_submit sent with ⟨rfl, rfl⟩ | ⟨k, m', found, written, wrote⟩
    · refine .inr ⟨m, m₁, before, between, ?_⟩
      simpa [DeviceMemory.overwrite] using furnished
    · rw [between, Option.some.injEq] at found
      subst found
      refine .inr ⟨m, m', before, wrote.memory? between, ?_⟩
      exact furnished.fill (wf.memory before) (by simpa using fits) written

theorem returns_upload_iff : Returns (upload content) l target l' ↔
    ∃ l₁, Returns (allocate content.length) l target l₁ ∧ Returns (submit target content) l₁ () l' := by
  have caught : ∀ l₁ addr, Returns (tryCatch (submit addr content) fun e => do
      tryCatch (free addr) fun _ => pure ()
      throw e) l₁ () l' ↔ Returns (submit addr content) l₁ () l' := by
    intro l₁ addr
    rw [Returns, exec_tryCatch, Returns]
    rcases ran : exec (submit addr content) l₁ with ⟨e | _, l₂⟩
    · constructor
      · intro sent
        obtain ⟨_, _, _, thrown⟩ := returns_bind.1 sent
        exact absurd thrown not_returns_throw
      · intro sent
        cases (Prod.mk.inj sent).1
    · rfl
  rw [upload, returns_bind]
  constructor
  · rintro ⟨addr, l₁, allocated, h⟩
    obtain ⟨_, l₂, sent, h⟩ := returns_bind.1 h
    obtain ⟨rfl, rfl⟩ := returns_pure.1 h
    exact ⟨l₁, allocated, (caught l₁ target).1 sent⟩
  · rintro ⟨l₁, allocated, sent⟩
    refine ⟨target, l₁, allocated, returns_bind.2 ⟨(), l', (caught l₁ target).2 sent, ?_⟩⟩
    exact returns_pure.2 ⟨rfl, rfl⟩

/-- What is uploaded fills a block of its own. -/
theorem furnished_upload (wf : l.accelerator.WellFormed) (filled : content ≠ [])
    (h : Returns (upload content) l target l') : l.Furnished [⟨target, content⟩] l' := by
  have positive : 0 < content.length := List.length_pos_iff.2 filled
  obtain ⟨l₁, allocated, sent⟩ := returns_upload_iff.1 h
  have furnished := furnished_submit wf (Nat.le_max_left _ _) (furnished_allocate wf allocated) sent
  rwa [Nat.max_eq_left positive, List.rightpad, Nat.sub_self, List.replicate_zero, List.append_nil]
    at furnished

end Device

end Offloading
