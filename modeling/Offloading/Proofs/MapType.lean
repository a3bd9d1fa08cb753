import Offloading.Argument.List
/-!
# Map types

Setting, clearing and keeping flags acts on each flag on its own, and what the part of an argument
depends on is not touched when a region is resolved from a descriptor.
-/

namespace Offloading

namespace MapType

variable {t : MapType} {f : MapFlag} {flags : List MapFlag}

theorem bit_lt (f : MapFlag) : f.bit < 64 := by
  cases f <;> decide

theorem bit_inj {f g : MapFlag} (h : f.bit = g.bit) : f = g := by
  cases f <;> cases g <;> first | rfl | exact absurd h (by decide)

theorem getLsbD_mask (flags : List MapFlag) (f : MapFlag) :
    (mask flags).getLsbD f.bit = flags.contains f := by
  have fold : ∀ (flags : List MapFlag) (w : BitVec 64),
      (flags.foldl (fun w f => w ||| BitVec.twoPow 64 f.bit) w).getLsbD f.bit =
        (w.getLsbD f.bit || flags.contains f) := by
    intro flags
    induction flags with
    | nil =>
        intro w
        simp
    | cons g rest ih =>
        intro w
        have same : decide (g.bit = f.bit) = (f == g) := by
          by_cases h : g.bit = f.bit
          · rw [bit_inj h]
            simp
          · have : f ≠ g := fun e => h (by rw [e])
            simp [h, this]
        rw [List.foldl_cons, ih, BitVec.getLsbD_or, BitVec.getLsbD_twoPow, List.contains_cons,
          same, decide_eq_true (bit_lt g), Bool.true_and, Bool.or_assoc]
  rw [mask, fold]
  simp

theorem has_set : (t.set flags).has f = (t.has f || flags.contains f) := by
  rw [set, has, has, BitVec.getLsbD_or, getLsbD_mask]

theorem has_clear : (t.clear flags).has f = (t.has f && !flags.contains f) := by
  rw [clear, has, has, BitVec.getLsbD_and, BitVec.getLsbD_not, getLsbD_mask,
    decide_eq_true (bit_lt f), Bool.true_and]

/-- All other flags of a region stay when it is resolved from a descriptor. -/
theorem has_unnested (nested : f ≠ .nested) (hasNested : f ≠ .hasNested) :
    (t.clear [.nested, .hasNested]).has f = t.has f := by
  simp [has_clear, nested, hasNested]

theorem has_keep : (t.keep flags).has f = (t.has f && flags.contains f) := by
  rw [keep, has, has, BitVec.getLsbD_and, getLsbD_mask]

/-- No flag lies among the bits that hold the position of a struct. -/
theorem getLsbD_mask_of_le {i : Nat} (h : 48 ≤ i) : (mask flags).getLsbD i = false := by
  have fold : ∀ (flags : List MapFlag) (w : BitVec 64), w.getLsbD i = false →
      (flags.foldl (fun w f => w ||| BitVec.twoPow 64 f.bit) w).getLsbD i = false := by
    intro flags
    induction flags with
    | nil => exact fun _ hw => hw
    | cons g rest ih =>
        intro w hw
        have low : g.bit < 48 := by cases g <;> decide
        have other : g.bit ≠ i := by omega
        refine ih _ ?_
        rw [BitVec.getLsbD_or, hw, BitVec.getLsbD_twoPow]
        simp [other]
  exact fold flags 0#64 BitVec.getLsbD_zero

/-- The position of the struct is read from the top bits. -/
theorem memberOf?_congr {t' : MapType} (same : ∀ i, 48 ≤ i → t'.bits.getLsbD i = t.bits.getLsbD i) :
    t'.memberOf? = t.memberOf? := by
  have top : t'.bits >>> 48 = t.bits >>> 48 := by
    apply BitVec.eq_of_getLsbD_eq fun i _ => ?_
    rw [BitVec.getLsbD_ushiftRight, BitVec.getLsbD_ushiftRight, same (48 + i) (Nat.le_add_right 48 i)]
  rw [memberOf?, memberOf?, top]

theorem memberOf?_clear : (t.clear flags).memberOf? = t.memberOf? := by
  refine memberOf?_congr fun i hi => ?_
  rw [clear, BitVec.getLsbD_and, BitVec.getLsbD_not, getLsbD_mask_of_le hi]
  by_cases inside : i < 64
  · simp [inside]
  · simp [BitVec.getLsbD_of_ge t.bits i (by omega)]

theorem isMember_clear : (t.clear flags).isMember = t.isMember := by
  rw [isMember, isMember, memberOf?_clear]

theorem isMember_set : (t.set flags).isMember = t.isMember := by
  rw [isMember, isMember, memberOf?_congr (t := t) fun i hi => ?_]
  rw [set, BitVec.getLsbD_or, getLsbD_mask_of_le hi, Bool.or_false]

/-- Nothing that is made of flags alone is a member. -/
theorem isMember_keep : (t.keep flags).isMember = false := by
  rw [isMember, memberOf?_congr (t := ⟨0#64⟩) fun i hi => ?_]
  · rfl
  · rw [keep, BitVec.getLsbD_and, getLsbD_mask_of_le hi, Bool.and_false, BitVec.getLsbD_zero]

theorem has_withMemberOf {parent : Nat} : (t.withMemberOf parent).has f = t.has f := by
  have low : f.bit < 48 := by cases f <;> decide
  have kept : (0x0000ffffffffffff#64).getLsbD f.bit = true := by cases f <;> rfl
  rw [withMemberOf, has, has, BitVec.getLsbD_or, BitVec.getLsbD_and, kept, Bool.and_true,
    BitVec.getLsbD_shiftLeft]
  simp [low]

/-- There is room for the position of any struct but the last ones that 16 bits can count. -/
theorem memberOf?_withMemberOf {parent : Nat} (h : parent + 1 < 65536) :
    (t.withMemberOf parent).memberOf? = some parent := by
  have top : (t.withMemberOf parent).bits >>> 48 = BitVec.ofNat 64 (parent + 1) := by
    apply BitVec.eq_of_getLsbD_eq fun i hi => ?_
    rw [withMemberOf, BitVec.getLsbD_ushiftRight, BitVec.getLsbD_or, BitVec.getLsbD_and,
      BitVec.getLsbD_shiftLeft, Nat.add_sub_cancel_left]
    by_cases low : i < 16
    · have gone : (0x0000ffffffffffff#64).getLsbD (48 + i) = false := by
        rw [BitVec.getLsbD_ofNat, Nat.testBit_lt_two_pow, Bool.and_false]
        exact Nat.lt_of_lt_of_le (by decide) (Nat.pow_le_pow_right Nat.two_pos (Nat.le_add_right 48 i))
      rw [gone]
      simp
      omega
    · have small := Nat.lt_of_lt_of_le h (Nat.pow_le_pow_right Nat.two_pos (Nat.le_of_not_lt low))
      have none : (BitVec.ofNat 64 (parent + 1)).getLsbD i = false := by
        rw [BitVec.getLsbD_ofNat, Nat.testBit_lt_two_pow small, Bool.and_false]
      rw [none, BitVec.getLsbD_of_ge t.bits (48 + i) (by omega)]
      simp
  have small : (BitVec.ofNat 64 (parent + 1)).toNat = parent + 1 := by
    rw [BitVec.toNat_ofNat]
    omega
  rw [memberOf?, top, small]

/-- Positions with the same low 16 bits give the same map type. -/
theorem withMemberOf_congr {parent other : Nat} (h : (parent + 1) % 65536 = (other + 1) % 65536) :
    t.withMemberOf parent = t.withMemberOf other := by
  have low : BitVec.ofNat 64 (parent + 1) <<< 48 = BitVec.ofNat 64 (other + 1) <<< 48 := by
    apply BitVec.eq_of_toNat_eq
    rw [BitVec.toNat_shiftLeft, BitVec.toNat_shiftLeft, BitVec.toNat_ofNat, BitVec.toNat_ofNat,
      Nat.shiftLeft_eq, Nat.shiftLeft_eq]
    omega
  rw [withMemberOf, withMemberOf, low]

/-- Whether an argument is a member depends on the low 16 bits only. -/
theorem isMember_withMemberOf {parent : Nat} (h : (parent + 1) % 65536 ≠ 0) :
    (t.withMemberOf parent).isMember = true := by
  have low : (parent + 1) % 65536 = ((parent + 1) % 65536 - 1 + 1) % 65536 := by omega
  rw [isMember, withMemberOf_congr low, memberOf?_withMemberOf (by omega)]
  rfl

end MapType

namespace Argument

variable {a : Argument}

/-- Whether an argument is mapped depends on a few of its flags. -/
theorem isMapped_congr {b : Argument}
    (h : ∀ f ∈ [MapFlag.pointerAndObject, .literal, .implicit, .privateCopy],
      b.mapType.has f = a.mapType.has f) : b.isMapped = a.isMapped := by
  simp only [List.forall_mem_cons, List.not_mem_nil, false_implies, implies_true, and_true] at h
  obtain ⟨pointer, literal, implicit, copy⟩ := h
  unfold isMapped kind MapType.isLambdaCapture
  rw [pointer, literal, implicit, copy]
  by_cases capture : (a.mapType.has .pointerAndObject && a.mapType.has .literal &&
      a.mapType.has .implicit) = true
  · rw [if_pos capture, if_pos capture]
    rfl
  · rw [if_neg capture, if_neg capture]
    by_cases hl : a.mapType.has .literal = true
    · rw [if_pos hl, if_pos hl]
    · rw [if_neg hl, if_neg hl]
      by_cases hc : a.mapType.has .privateCopy = true
      · rw [if_pos hc, if_pos hc]
        rfl
      · rw [if_neg hc, if_neg hc]

theorem isMapped_unnested :
    Argument.isMapped { a with mapType := a.mapType.clear [.nested, .hasNested] } = a.isMapped :=
  isMapped_congr (by simp [MapType.has_unnested])

end Argument

end Offloading
