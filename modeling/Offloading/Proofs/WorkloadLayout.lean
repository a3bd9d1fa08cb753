import Mathlib.Logic.Function.Basic
import Offloading.Workload
import Offloading.Proofs.FaultlessRegion
import Offloading.Proofs.PointerStructs
import Offloading.Proofs.SectionStack
/-!
# The sections of a workload

The arguments of a workload come in pairs, a struct and the array that its pointer leads to. Their sections
make up a stack: the struct of number `s` is section `2 * s`, its array is section `2 * s + 1`.
-/

namespace Offloading

/-- The values of two sequences in turn. -/
def interleave {α : Type} (x y : Nat → α) (j : Nat) : α := if j % 2 = 0 then x (j / 2) else y (j / 2)

@[simp] theorem interleave_even {α : Type} {x y : Nat → α} (s : Nat) : interleave x y (2 * s) = x s := by
  rw [interleave, Nat.mul_mod_right, if_pos rfl, Nat.mul_div_cancel_left s Nat.two_pos]

@[simp] theorem interleave_odd {α : Type} {x y : Nat → α} (s : Nat) :
    interleave x y (2 * s + 1) = y s := by
  rw [interleave, Nat.mul_add_mod, if_neg (by decide), show (2 * s + 1) / 2 = s by omega]

namespace Workload

variable {w : Workload} {b : Buffers} {s : Nat} {alignment : Nat}

/-- Bytes of an array. -/
def arrayBytes (w : Workload) : Nat := w.elements * elementBytes

theorem arrayBytes_pos : 0 < w.arrayBytes :=
  Nat.mul_pos (Nat.lt_of_lt_of_le Nat.one_pos (Nat.le_max_left _ _)) (by decide)

/-- Buffers of a workload: the structs are aligned like pointers, no two buffers have a byte in common, and
all of them end within the address space. -/
structure Buffers.Suitable (b : Buffers) (w : Workload) : Prop where
  aligned : b.structs % Word.bytes = 0
  structs : b.structs + w.structs * structBytes ≤ Word.greatest
  arrays : ∀ s < w.structs, b.elements s + w.arrayBytes ≤ Word.greatest
  fromStructs : ∀ s < w.structs, HostSection.Apart ⟨b.elements s, w.arrayBytes⟩
    ⟨b.structs, w.structs * structBytes⟩
  fromArrays : ∀ r < w.structs, ∀ s < w.structs, r ≠ s →
    HostSection.Apart ⟨b.elements r, w.arrayBytes⟩ ⟨b.elements s, w.arrayBytes⟩

/-! ## Arguments -/

/-- The argument for a struct. -/
def structArgument (b : Buffers) (s : Nat) : Argument :=
  ⟨b.structAddr s, b.structAddr s, structBytes, .ofFlags [.toDevice, .fromDevice, .targetParam]⟩

/-- The argument for the array of a struct. -/
def arrayArgument (w : Workload) (b : Buffers) (s : Nat) : Argument :=
  ⟨b.structAddr s, b.elements s, w.arrayBytes,
    (MapType.ofFlags [.toDevice, .fromDevice, .pointerAndObject]).withMemberOf (2 * s)⟩

/-- The arguments for the first `n` structs. -/
def argumentsOf (w : Workload) (b : Buffers) (n : Nat) : List Argument :=
  (List.range n).flatMap fun s => [structArgument b s, w.arrayArgument b s]

theorem argumentsOf_succ (n : Nat) :
    w.argumentsOf b (n + 1) = w.argumentsOf b n ++ [structArgument b n, w.arrayArgument b n] := by
  rw [argumentsOf, argumentsOf, List.range_succ, List.flatMap_append]
  rfl

theorem length_argumentsOf (n : Nat) : (w.argumentsOf b n).length = 2 * n := by
  induction n with
  | zero => rfl
  | succ n ih => rw [argumentsOf_succ, List.length_append, ih]; rfl

theorem size_arguments : (w.arguments b).size = 2 * w.structs := length_argumentsOf w.structs

theorem argumentsOf_pair {n : Nat} (hs : s < n) :
    (w.argumentsOf b n)[2 * s]? = some (structArgument b s) ∧
      (w.argumentsOf b n)[2 * s + 1]? = some (w.arrayArgument b s) := by
  induction n with
  | zero => omega
  | succ n ih =>
      rw [argumentsOf_succ]
      rcases Nat.lt_succ_iff_lt_or_eq.1 hs with lt | rfl
      · rw [List.getElem?_append_left (by rw [length_argumentsOf]; omega),
          List.getElem?_append_left (by rw [length_argumentsOf]; omega)]
        exact ih lt
      · rw [List.getElem?_append_right (by rw [length_argumentsOf]),
          List.getElem?_append_right (by rw [length_argumentsOf]; omega), length_argumentsOf,
          Nat.sub_self, Nat.add_sub_cancel_left]
        exact ⟨rfl, rfl⟩

theorem isStruct (aligned : b.structs % Word.bytes = 0) (divides : alignment ∣ Word.bytes) :
    (structArgument b s).IsStruct alignment where
  mapType := rfl
  base := rfl
  aligned := by
    have start : Word.bytes ∣ b.structAddr s :=
      (Nat.dvd_of_mod_eq_zero aligned).add ((Dvd.intro_left 2 rfl).mul_left s)
    exact Nat.mod_eq_zero_of_dvd (divides.trans start)

theorem isField : (w.arrayArgument b s).IsField (2 * s) (structArgument b s) where
  mapType := rfl
  inside := ⟨Nat.le_refl _, Nat.add_le_add_left (show Word.bytes ≤ structBytes by decide) _⟩

/-- The position of a struct is even, so that the low bits of the next number are never zero. -/
theorem isMember_array : (w.arrayArgument b s).mapType.isMember = true :=
  MapType.isMember_withMemberOf (by omega)

theorem exchanged_array : (w.arrayArgument b s).Exchanged := isField.exchanged_of_isMember isMember_array

theorem mappedSection_struct {settings : Settings} {padded : Bool} (aligned : b.structs % Word.bytes = 0)
    (divides : settings.config.structAlignment ∣ Word.bytes) :
    Region.mappedSection settings padded (structArgument b s) = (b.structAddr s, structBytes) := by
  have whole : b.structAddr s % settings.config.structAlignment = 0 := (isStruct (s := s) aligned divides).aligned
  unfold Region.mappedSection
  split
  · dsimp only [structArgument]
    rw [whole]
    rfl
  · rfl

theorem mappedSection_array {settings : Settings} (args : ArgumentList) {index : Nat}
    (found : args.arguments[index]? = some (w.arrayArgument b s)) :
    Region.mappedSection settings (Region.isPadded args index (w.arrayArgument b s))
      (w.arrayArgument b s) = (b.elements s, w.arrayBytes) := by
  have unpadded : Region.isPadded args index (w.arrayArgument b s) = false := by
    rw [Region.isPadded, ArgumentList.headsStruct, found]
    dsimp only
    rw [isMember_array, Bool.not_true, Bool.false_and, Bool.and_false]
  rw [Region.mappedSection, unpadded]
  rfl

/-! ## The stack -/

/-- The sections of a workload, with the first block at `base`. -/
def stack (w : Workload) (b : Buffers) (base : Nat) : SectionStack where
  part := interleave (fun s => ⟨b.structAddr s, structBytes⟩) fun s => ⟨b.elements s, w.arrayBytes⟩
  base := base

/-- Device bytes from the block of a struct to that of the next one. -/
def pairStride (w : Workload) : Nat := DeviceMemory.stride structBytes + DeviceMemory.stride w.arrayBytes

/-- Bytes of a struct and its array. -/
def pairBytes (w : Workload) : Nat := structBytes + w.arrayBytes

variable {base : Nat}

@[simp] theorem part_struct : (w.stack b base).part (2 * s) = ⟨b.structAddr s, structBytes⟩ := by
  simp [stack]

@[simp] theorem part_array : (w.stack b base).part (2 * s + 1) = ⟨b.elements s, w.arrayBytes⟩ := by
  simp [stack]

theorem target_array :
    (w.stack b base).target (2 * s + 1) = (w.stack b base).target (2 * s) + DeviceMemory.stride structBytes := by
  rw [SectionStack.target, part_struct]

theorem target_struct_succ :
    (w.stack b base).target (2 * (s + 1)) = (w.stack b base).target (2 * s) + w.pairStride := by
  rw [Nat.mul_succ, SectionStack.target, target_array, part_array, pairStride, Nat.add_assoc]

theorem target_struct : (w.stack b base).target (2 * s) = base + s * w.pairStride := by
  induction s with
  | zero => rw [Nat.zero_mul]; rfl
  | succ s ih => rw [target_struct_succ, ih, Nat.succ_mul, Nat.add_assoc]

/-- Each section is a struct or an array. -/
theorem lt_pairs {n j : Nat} (hj : j < 2 * n) : ∃ s < n, j = 2 * s ∨ j = 2 * s + 1 :=
  ⟨j / 2, by omega, by omega⟩

theorem Buffers.structAddr_le (hs : s < w.structs) :
    b.structAddr s + structBytes ≤ b.structs + w.structs * structBytes := by
  have := Nat.mul_le_mul_right structBytes (Nat.succ_le_of_lt hs)
  rw [Nat.succ_mul] at this
  rw [structAddr]
  omega

theorem Buffers.structAddr_apart {r s : Nat} (lt : r < s) :
    b.structAddr r + structBytes ≤ b.structAddr s := by
  have := Nat.mul_le_mul_right structBytes (Nat.succ_le_of_lt lt)
  rw [Nat.succ_mul] at this
  rw [structAddr, structAddr]
  omega

theorem Buffers.Suitable.apart (h : b.Suitable w) {i j : Nat} (hi : i < 2 * w.structs) (hj : j < 2 * w.structs)
    (ne : i ≠ j) : ((w.stack b base).part i).Apart ((w.stack b base).part j) := by
  obtain ⟨r, hr, rfl | rfl⟩ := lt_pairs hi <;> obtain ⟨s, hs, rfl | rfl⟩ := lt_pairs hj
  · rw [part_struct, part_struct]
    rcases Nat.lt_or_gt_of_ne (show r ≠ s by omega) with lt | gt
    · exact .inl (structAddr_apart lt)
    · exact .inr (structAddr_apart gt)
  · rw [part_struct, part_array]
    have last := Buffers.structAddr_le (b := b) hr
    rcases h.fromStructs s hs with before | after
    · refine .inr (Nat.le_trans before ?_)
      exact Nat.le_add_right _ _
    · exact .inl (Nat.le_trans last after)
  · rw [part_array, part_struct]
    have last := Buffers.structAddr_le (b := b) hs
    rcases h.fromStructs r hr with before | after
    · refine .inl (Nat.le_trans before ?_)
      exact Nat.le_add_right _ _
    · exact .inr (Nat.le_trans last after)
  · rw [part_array, part_array]
    exact h.fromArrays r hr s hs (by omega)

/-- The sections of suitable buffers can be mapped one after the other. -/
theorem Buffers.Suitable.separate (h : b.Suitable w)
    (space : base + w.structs * w.pairStride ≤ Word.modulus) :
    (w.stack b base).Separate (2 * w.structs) where
  nonempty j hj := by
    obtain ⟨s, hs, rfl | rfl⟩ := lt_pairs hj
    · rw [part_struct]
      exact Nat.mul_pos Nat.two_pos (by decide)
    · rw [part_array]
      exact arrayBytes_pos
  bounded j hj := by
    obtain ⟨s, hs, rfl | rfl⟩ := lt_pairs hj
    · rw [part_struct]
      exact Nat.le_trans (Buffers.structAddr_le (b := b) hs) h.structs
    · rw [part_array]
      exact h.arrays s hs
  apart _ hi _ hj ne := h.apart hi hj ne
  addressable := target_struct.trans_le space

/-- The buffers of a run for which none are given are suitable, if they end within the address space. -/
theorem suitable_buffers (space : structBase + w.structs * structBytes + gap +
    w.structs * (w.elements * elementBytes + gap) ≤ Word.greatest) : w.buffers.Suitable w := by
  have gaps : gap = 64 := rfl
  have array : w.arrayBytes = w.elements * elementBytes := rfl
  have place : ∀ s, w.buffers.elements s =
      structBase + w.structs * structBytes + gap + s * (w.elements * elementBytes + gap) := fun _ => rfl
  have behind : ∀ {r s : Nat}, r < s →
      w.buffers.elements r + w.arrayBytes ≤ w.buffers.elements s := by
    intro r s lt
    have steps := Nat.mul_le_mul_right (w.elements * elementBytes + gap) (Nat.succ_le_of_lt lt)
    rw [Nat.succ_mul] at steps
    rw [place, place]
    omega
  refine ⟨(by decide : structBase % Word.bytes = 0), ?_, fun s hs => ?_, fun s hs => .inr ?_,
    fun r hr s hs ne => ?_⟩
  · change structBase + w.structs * structBytes ≤ _
    omega
  · have last := behind hs
    rw [place w.structs] at last
    omega
  · change structBase + w.structs * structBytes ≤ w.buffers.elements s
    rw [place]
    omega
  · rcases Nat.lt_or_gt_of_ne ne with lt | gt
    · exact .inl (behind lt)
    · exact .inr (behind gt)

/-! ## Contents -/

/-- A struct with this pointer. -/
def structText (w : Workload) (pointer : Nat) : List UInt8 := Word.toBytes pointer ++ Word.toBytes w.elements

/-- What the sections hold when the structs have these pointers and their arrays were in so many regions. -/
def text (w : Workload) (pointer regions : Nat → Nat) : Nat → List UInt8 :=
  interleave (fun s => w.structText (pointer s)) fun s => w.contentAfter (regions s) s

variable {pointer regions : Nat → Nat}

@[simp] theorem text_struct : w.text pointer regions (2 * s) = w.structText (pointer s) :=
  interleave_even s

@[simp] theorem text_array : w.text pointer regions (2 * s + 1) = w.contentAfter (regions s) s :=
  interleave_odd s

/-- Another pointer replaces the first bytes of its struct, and nothing else. -/
theorem text_update_struct (pointer regions : Nat → Nat) (s p : Nat) :
    w.text (Function.update pointer s p) regions (2 * s) =
      Word.toBytes p ++ (w.text pointer regions (2 * s)).drop (Word.toBytes p).length := by
  have width : (Word.toBytes p).length = (Word.toBytes (pointer s)).length := by
    rw [Word.length_toBytes, Word.length_toBytes]
  rw [text_struct, text_struct, Function.update_self, structText, structText, List.drop_left' width.symm]

theorem text_update_other (pointer regions : Nat → Nat) {s p j : Nat} (ne : j ≠ 2 * s) :
    w.text (Function.update pointer s p) regions j = w.text pointer regions j := by
  obtain ⟨i, -, rfl | rfl⟩ := lt_pairs (show j < 2 * (j / 2 + 1) by omega)
  · rw [text_struct, text_struct, Function.update_of_ne (by omega)]
  · rw [text_array, text_array]

theorem text_congr {pointer' regions' : Nat → Nat} {n : Nat} (pointers : ∀ s < n, pointer s = pointer' s)
    (counts : ∀ s < n, regions s = regions' s) :
    ∀ j < 2 * n, w.text pointer regions j = w.text pointer' regions' j := by
  intro j hj
  obtain ⟨s, hs, rfl | rfl⟩ := lt_pairs hj
  · rw [text_struct, text_struct, pointers s hs]
  · rw [text_array, text_array, counts s hs]

@[simp] theorem length_structText (p : Nat) : (w.structText p).length = structBytes := by
  rw [structText, List.length_append, Word.length_toBytes, Word.length_toBytes]
  rfl

@[simp] theorem length_elementText (value : Nat) : (elementText value).length = elementBytes :=
  Word.length_lowBytes _ _

@[simp] theorem length_contentAfter (r s : Nat) : (w.contentAfter r s).length = w.arrayBytes := by
  rw [contentAfter, List.length_flatMap]
  simp [arrayBytes]

theorem length_text {j : Nat} :
    (w.text pointer regions j).length = ((w.stack b base).part j).size := by
  obtain ⟨s, -, rfl | rfl⟩ := lt_pairs (show j < 2 * (j / 2 + 1) by omega)
  · rw [text_struct, part_struct, length_structText]
  · rw [text_array, part_array, length_contentAfter]

/-! ## Host memory -/

theorem Buffers.Suitable.elements_lt (h : b.Suitable w) (hs : s < w.structs) :
    b.elements s < Word.modulus := by
  have bound := h.arrays s hs
  have word : Word.greatest < Word.modulus := by decide
  omega

/-- The pointer of a struct, as the host has it. -/
theorem Buffers.Suitable.readPointer (h : b.Suitable w) {host : HostMemory}
    (held : (w.stack b base).Held (2 * w.structs) (w.text b.elements regions) host) (hs : s < w.structs) :
    host.readPointer (b.structAddr s) = b.elements s := by
  have struct := held (2 * s) (by omega)
  rw [part_struct, text_struct, structText] at struct
  have front : host.read (b.structAddr s) Word.bytes = Word.toBytes (b.elements s) := by
    have split := HostMemory.read_add host (b.structAddr s) Word.bytes Word.bytes
    rw [show Word.bytes + Word.bytes = structBytes by decide, struct] at split
    exact (List.append_inj split (by rw [Word.length_toBytes, HostMemory.length_read]; rfl)).1.symm
  rw [HostMemory.readPointer, front, Word.ofBytes_toBytes (h.elements_lt hs)]

/-- Placing a struct and its array leaves all other sections as they are. -/
theorem read_place_other {host : HostMemory} {part : HostSection}
    (struct : part.Apart ⟨b.structAddr s, structBytes⟩)
    (array : part.Apart ⟨b.elements s, w.arrayBytes⟩) :
    (w.place b host s).read part.first part.size = host.read part.first part.size := by
  have wide : structBytes = 16 := rfl
  have word : Word.bytes = 8 := rfl
  have apart : part.first + part.size ≤ b.structAddr s ∨
    b.structAddr s + structBytes ≤ part.first := struct
  have apart' : part.first + part.size ≤ b.elements s ∨
    b.elements s + w.arrayBytes ≤ part.first := array
  rw [place, HostMemory.read_write_apart (by rw [length_contentAfter]; exact apart'), HostMemory.writePointer,
    HostMemory.read_write_apart (by rw [Word.length_toBytes]; omega), HostMemory.writePointer,
    HostMemory.read_write_apart (by rw [Word.length_toBytes]; omega)]

theorem read_place_array {host : HostMemory} :
    (w.place b host s).read (b.elements s) w.arrayBytes = w.contentAfter 0 s := by
  rw [place, ← length_contentAfter 0 s, HostMemory.read_write_self]

theorem read_place_struct {host : HostMemory}
    (apart : HostSection.Apart ⟨b.structAddr s, structBytes⟩ ⟨b.elements s, w.arrayBytes⟩) :
    (w.place b host s).read (b.structAddr s) structBytes = w.structText (b.elements s) := by
  have word : ∀ (m : HostMemory) (addr value : Nat),
      (m.writePointer addr value).read addr Word.bytes = Word.toBytes value := by
    intro m addr value
    have whole : (m.write addr (Word.toBytes value)).read addr (Word.toBytes value).length =
        Word.toBytes value := HostMemory.read_write_self
    rwa [Word.length_toBytes] at whole
  rw [place, HostMemory.read_write_apart (by rw [length_contentAfter]; exact apart),
    show structBytes = Word.bytes + Word.bytes from rfl, HostMemory.read_add, word, structText,
    HostMemory.writePointer, HostMemory.read_write_apart (.inl (Nat.le_refl _)), word]

/-- Before the first region every array is as it was made. -/
theorem Buffers.Suitable.held_initialHost (h : b.Suitable w) :
    (w.stack b base).Held (2 * w.structs) (w.text b.elements fun _ => 0) (w.initialHost b) := by
  have placed : ∀ n ≤ w.structs, (w.stack b base).Held (2 * n) (w.text b.elements fun _ => 0)
      ((List.range n).foldl (w.place b) {}) := by
    intro n le
    induction n with
    | zero => exact fun j lt => absurd lt (Nat.not_lt_zero j)
    | succ n ih =>
        have before := ih (Nat.le_of_succ_le le)
        rw [List.range_succ, List.foldl_append, List.foldl_cons, List.foldl_nil]
        have apart : ∀ {i j : Nat}, i < 2 * (n + 1) → j < 2 * (n + 1) → i ≠ j →
            ((w.stack b base).part i).Apart ((w.stack b base).part j) :=
          fun hi hj ne => h.apart (by omega) (by omega) ne
        intro j hj
        by_cases old : j < 2 * n
        · have struct := apart hj (show 2 * n < 2 * (n + 1) by omega) (by omega)
          have array := apart hj (show 2 * n + 1 < 2 * (n + 1) by omega) (by omega)
          rw [part_struct] at struct
          rw [part_array] at array
          rw [read_place_other struct array, before j old]
        · obtain rfl | rfl : j = 2 * n ∨ j = 2 * n + 1 := by omega
          · have struct := apart hj (show 2 * n + 1 < 2 * (n + 1) by omega) (by omega)
            rw [part_struct, part_array] at struct
            rw [part_struct, text_struct, read_place_struct struct]
          · rw [part_array, text_array, read_place_array]
  exact placed w.structs (Nat.le_refl _)

/-! ## The kernel's work -/

/-- Only the low bytes of a number count when they are stored. -/
private theorem elementText_mod (value : Nat) :
    elementText (value % Nat.pow 256 elementBytes) = elementText value := by
  have stored := Word.lowBytes_ofBytes (Word.lowBytes value elementBytes)
  rw [Word.ofBytes_lowBytes, Word.length_lowBytes] at stored
  exact stored

private theorem incremented_cons (value : Nat) (rest : List UInt8) :
    incremented (elementText value ++ rest) = elementText (value + 1) ++ incremented rest := by
  change elementText (Word.ofBytes (Word.lowBytes value elementBytes) + 1) ++ incremented rest = _
  rw [Word.ofBytes_lowBytes, ← elementText_mod (value % Nat.pow 256 elementBytes + 1), Nat.mod_add_mod,
    elementText_mod]

/-- Adding one to every element makes of an array what it is after one more region. -/
theorem incremented_contentAfter (r s : Nat) :
    incremented (w.contentAfter r s) = w.contentAfter (r + 1) s := by
  have each : ∀ elements : List Nat, incremented (elements.flatMap fun e => elementText (e + s + r)) =
      elements.flatMap fun e => elementText (e + s + (r + 1)) := by
    intro elements
    induction elements with
    | nil => rfl
    | cons e rest ih => rw [List.flatMap_cons, List.flatMap_cons, incremented_cons, ih]; rfl
  exact each _

end Workload

end Offloading
