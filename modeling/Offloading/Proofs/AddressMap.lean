import Offloading.AddressMap
/-!
# Address maps as sets

An address map is determined by its items, and each operation is described by the items that it
keeps and adds. The neighbours of an address are the nearest items on either side.
-/

namespace Offloading.AddressMap

variable {β : Type} [Addressed β] {m n : AddressMap β} {b x y : β} {addr slot lower upper : Nat}

instance : Membership β (AddressMap β) := ⟨fun m x => x ∈ m.items⟩

theorem mem_items : x ∈ m.items ↔ x ∈ m := Iff.rfl

theorem not_mem_empty : x ∉ (∅ : AddressMap β) := List.not_mem_nil

/-- At most one item lies at an address. -/
theorem eq_of_address_eq (hx : x ∈ m) (hy : y ∈ m) (h : address x = address y) : x = y := by
  obtain ⟨items, descending⟩ := m
  change x ∈ items at hx
  change y ∈ items at hy
  induction items with
  | nil => exact absurd hx List.not_mem_nil
  | cons c rest ih =>
      obtain ⟨below, tail⟩ := List.pairwise_cons.1 descending
      rcases List.mem_cons.1 hx with hxc | hxr <;> rcases List.mem_cons.1 hy with hyc | hyr
      · rw [hxc, hyc]
      · have := below y hyr
        rw [hxc] at h
        omega
      · have := below x hxr
        rw [hyc] at h
        omega
      · exact ih tail hxr hyr

private theorem items_eq_of_mem_iff {l k : List β}
    (hl : l.Pairwise fun a b => address b < address a)
    (hk : k.Pairwise fun a b => address b < address a) (h : ∀ x, x ∈ l ↔ x ∈ k) : l = k := by
  induction l generalizing k with
  | nil =>
      cases k with
      | nil => rfl
      | cons c rest => exact absurd ((h c).2 List.mem_cons_self) List.not_mem_nil
  | cons a l ih =>
      cases k with
      | nil => exact absurd ((h a).1 List.mem_cons_self) List.not_mem_nil
      | cons c k =>
          obtain ⟨belowA, tailA⟩ := List.pairwise_cons.1 hl
          obtain ⟨belowC, tailC⟩ := List.pairwise_cons.1 hk
          -- both heads carry the greatest address of the same set
          have head : a = c := by
            rcases List.mem_cons.1 ((h a).1 List.mem_cons_self) with hac | hac
            · exact hac
            · rcases List.mem_cons.1 ((h c).2 List.mem_cons_self) with hca | hca
              · exact hca.symm
              · have := belowC a hac
                have := belowA c hca
                omega
          subst head
          congr 1
          apply ih tailA tailC
          intro x
          constructor
          · intro hx
            rcases List.mem_cons.1 ((h x).1 (List.mem_cons_of_mem _ hx)) with rfl | hx'
            · exact absurd (belowA x hx) (Nat.lt_irrefl _)
            · exact hx'
          · intro hx
            rcases List.mem_cons.1 ((h x).2 (List.mem_cons_of_mem _ hx)) with rfl | hx'
            · exact absurd (belowC x hx) (Nat.lt_irrefl _)
            · exact hx'

/-- Maps with the same items are equal. -/
theorem ext_mem (h : ∀ x, x ∈ m ↔ x ∈ n) : m = n := by
  obtain ⟨l, hl⟩ := m
  obtain ⟨k, hk⟩ := n
  congr 1
  exact items_eq_of_mem_iff hl hk h

/-! ## Insertion and removal -/

private theorem mem_place {items : List β}
    (h : items.Pairwise fun a b => address b < address a) :
    x ∈ place b items ↔ x = b ∨ (x ∈ items ∧ address x ≠ address b) := by
  induction items with
  | nil => simp [place]
  | cons c rest ih =>
      obtain ⟨below, tail⟩ := List.pairwise_cons.1 h
      have lower : ∀ y ∈ rest, address y < address c := below
      simp only [place]
      split
      · rename_i hlt
        constructor
        · intro hx
          rcases List.mem_cons.1 hx with rfl | hx
          · exact .inl rfl
          · refine .inr ⟨hx, ?_⟩
            rcases List.mem_cons.1 hx with rfl | hx
            · omega
            · have := lower x hx
              omega
        · rintro (rfl | ⟨hx, -⟩)
          · exact List.mem_cons_self
          · exact List.mem_cons_of_mem _ hx
      · split
        · rename_i heq
          constructor
          · intro hx
            rcases List.mem_cons.1 hx with rfl | hx
            · exact .inl rfl
            · have := lower x hx
              exact .inr ⟨List.mem_cons_of_mem _ hx, by omega⟩
          · rintro (rfl | ⟨hx, hne⟩)
            · exact List.mem_cons_self
            · rcases List.mem_cons.1 hx with rfl | hx
              · exact absurd heq hne
              · exact List.mem_cons_of_mem _ hx
        · rename_i hlt hne
          simp only [List.mem_cons, ih tail]
          constructor
          · rintro (rfl | rfl | ⟨hx, hne⟩)
            · exact .inr ⟨.inl rfl, hne⟩
            · exact .inl rfl
            · exact .inr ⟨.inr hx, hne⟩
          · rintro (rfl | ⟨rfl | hx, hne⟩)
            · exact .inr (.inl rfl)
            · exact .inl rfl
            · exact .inr (.inr ⟨hx, hne⟩)

theorem mem_insert : x ∈ m.insert b ↔ x = b ∨ (x ∈ m ∧ address x ≠ address b) :=
  mem_place m.descending

theorem mem_insert_self : b ∈ m.insert b := mem_insert.2 (.inl rfl)

theorem mem_filter {keep : β → Bool} : x ∈ m.filter keep ↔ x ∈ m ∧ keep x = true := by
  exact List.mem_filter

theorem mem_erase : x ∈ m.erase addr ↔ x ∈ m ∧ address x ≠ addr := by
  rw [erase, mem_filter, bne_iff_ne]

theorem inRange_iff :
    inRange lower upper x = true ↔ lower ≤ address x ∧ address x < upper := by
  rw [inRange, Bool.and_eq_true, decide_eq_true_iff, decide_eq_true_iff]

theorem mem_range :
    x ∈ m.range lower upper ↔ x ∈ m ∧ lower ≤ address x ∧ address x < upper := by
  rw [range, List.mem_filter, inRange_iff]
  exact Iff.rfl

theorem descending_range : (m.range lower upper).Pairwise fun a b => address b < address a :=
  m.descending.filter _

theorem range_eq_nil (none : ∀ x ∈ m, ¬ (lower ≤ address x ∧ address x < upper)) :
    m.range lower upper = [] := by
  rw [List.eq_nil_iff_forall_not_mem]
  intro x hx
  obtain ⟨hx, inside⟩ := mem_range.1 hx
  exact none x hx inside

theorem range_eq_singleton (hx : x ∈ m.range lower upper)
    (only : ∀ y ∈ m.range lower upper, y = x) : m.range lower upper = [x] := by
  have distinct : (m.range lower upper).Pairwise fun a b => address b < address a := descending_range
  cases items : m.range lower upper with
  | nil =>
      rw [items] at hx
      cases hx
  | cons y rest =>
      rw [items] at only distinct
      obtain ⟨rfl, others⟩ := List.forall_mem_cons.1 only
      have last : rest = [] := by
        rw [List.eq_nil_iff_forall_not_mem]
        intro z hz
        have below := (List.pairwise_cons.1 distinct).1 z hz
        rw [others z hz] at below
        exact Nat.lt_irrefl _ below
      rw [last]

theorem mem_eraseRange :
    x ∈ m.eraseRange lower upper ↔ x ∈ m ∧ ¬ (lower ≤ address x ∧ address x < upper) := by
  rw [eraseRange, mem_filter, Bool.not_eq_true', ← Bool.not_eq_true, inRange_iff]

theorem eraseRange_eraseRange :
    (m.eraseRange lower upper).eraseRange lower upper = m.eraseRange lower upper :=
  ext_mem fun x => by rw [mem_eraseRange, mem_eraseRange, and_assoc, and_self]

/-- What is erased outside of a range is not missed in it. -/
theorem range_eraseRange {lower' upper' : Nat}
    (apart : ∀ a, lower ≤ a → a < upper → ¬ (lower' ≤ a ∧ a < upper')) :
    (m.eraseRange lower upper).range lower' upper' = m.range lower' upper' := by
  change (m.items.filter fun b => !inRange lower upper b).filter (inRange lower' upper') =
    m.items.filter (inRange lower' upper')
  rw [List.filter_filter]
  refine List.filter_congr fun b _ => ?_
  cases visited : inRange lower' upper' b with
  | false => rfl
  | true =>
      have kept : inRange lower upper b = false := by
        rw [← Bool.not_eq_true, inRange_iff]
        exact fun gone => apart _ gone.1 gone.2 (inRange_iff.1 visited)
      rw [kept]
      rfl

/-- Putting an item back in its own place changes nothing. -/
theorem insert_eq_self (h : b ∈ m) : m.insert b = m := by
  apply ext_mem
  intro x
  rw [mem_insert]
  constructor
  · rintro (rfl | ⟨hx, -⟩)
    · exact h
    · exact hx
  · intro hx
    by_cases hxb : address x = address b
    · exact .inl (eq_of_address_eq hx h hxb)
    · exact .inr ⟨hx, hxb⟩

/-- An item inserted above all others comes first. -/
theorem items_insert_of_above (h : ∀ x ∈ m, address x < address b) :
    (m.insert b).items = b :: m.items := by
  change place b m.items = b :: m.items
  cases hm : m.items with
  | nil => rfl
  | cons c rest =>
      have hc : c ∈ m.items := by simp [hm]
      rw [place, if_pos (h c hc)]

private theorem place_of_mem {items : List β} {c : β}
    (descending : items.Pairwise fun a b => address b < address a)
    (h : c ∈ items) (same : address c = address b) :
    place b items = items.map fun x => if address x = address b then b else x := by
  induction items with
  | nil => simp at h
  | cons d rest ih =>
      obtain ⟨below, tail⟩ := List.pairwise_cons.1 descending
      rcases List.mem_cons.1 h with rfl | hc
      · have others : ∀ x ∈ rest, (if address x = address b then b else x) = x := by
          intro x hx
          have := below x hx
          exact if_neg (by omega)
        rw [place, if_neg (by omega), if_pos same, List.map_cons, if_pos same,
          List.map_congr_left others, List.map_id']
      · have := below c hc
        rw [place, if_neg (by omega), if_neg (by omega), ih tail hc, List.map_cons,
          if_neg (by omega)]

/-- An item that is inserted in the place of another one leaves all others where they are. -/
theorem items_insert_of_mem {c : β} (h : b ∈ m) (same : address c = address b) :
    (m.insert c).items = m.items.map fun x => if address x = address b then c else x := by
  rw [← same]
  exact place_of_mem m.descending h same.symm

/-- Of two items inserted at one address the second one stays. -/
theorem insert_insert {c : β} (h : address b = address c) :
    (m.insert b).insert c = m.insert c := by
  apply ext_mem
  intro x
  simp only [mem_insert]
  constructor
  · rintro (rfl | ⟨rfl | ⟨hx, -⟩, hne⟩)
    · exact .inl rfl
    · exact absurd h hne
    · exact .inr ⟨hx, hne⟩
  · rintro (rfl | ⟨hx, hne⟩)
    · exact .inl rfl
    · exact .inr ⟨.inr ⟨hx, h ▸ hne⟩, hne⟩

/-- Removing what was inserted at a free address changes nothing. -/
theorem erase_insert (h : ∀ x ∈ m, address x ≠ address b) :
    (m.insert b).erase (address b) = m := by
  apply ext_mem
  intro x
  rw [mem_erase, mem_insert]
  constructor
  · rintro ⟨rfl | ⟨hx, -⟩, hne⟩
    · exact absurd rfl hne
    · exact hx
  · intro hx
    exact ⟨.inr ⟨hx, h x hx⟩, h x hx⟩

private theorem perm_place {items : List β} (h : ∀ x ∈ items, address x ≠ address b) :
    (place b items).Perm (b :: items) := by
  induction items with
  | nil => exact .refl _
  | cons c rest ih =>
      rw [place]
      split
      · exact .refl _
      · rw [if_neg (h c List.mem_cons_self)]
        have inner := ih fun x hx => h x (List.mem_cons_of_mem c hx)
        exact (inner.cons c).trans (.swap b c rest)

/-- An item at a free address joins the others. -/
theorem perm_insert (h : ∀ x ∈ m, address x ≠ address b) :
    (m.insert b).items.Perm (b :: m.items) := perm_place h

/-- An item that is erased leaves the others. -/
theorem perm_erase (h : b ∈ m) : m.items.Perm (b :: (m.erase (address b)).items) := by
  have back : (m.erase (address b)).insert b = m := by
    apply ext_mem
    intro x
    rw [mem_insert, mem_erase]
    constructor
    · rintro (rfl | ⟨⟨hx, -⟩, -⟩)
      · exact h
      · exact hx
    · intro hx
      by_cases same : address x = address b
      · exact .inl (eq_of_address_eq hx h same)
      · exact .inr ⟨⟨hx, same⟩, same⟩
  have joined := perm_insert (m := m.erase (address b)) fun x hx => (mem_erase.1 hx).2
  rwa [back] at joined

/-! ## Looking up -/

theorem get?_eq_some_iff : m.get? addr = some x ↔ x ∈ m ∧ address x = addr := by
  constructor
  · intro h
    have at_ := List.find?_some h
    exact ⟨List.mem_of_find?_eq_some h, by simpa using at_⟩
  · rintro ⟨hx, rfl⟩
    cases h : m.get? (address x) with
    | none =>
        have := List.find?_eq_none.1 h x hx
        simp at this
    | some y =>
        have at_ := List.find?_some h
        have hy : y ∈ m := List.mem_of_find?_eq_some h
        rw [eq_of_address_eq hy hx (by simpa using at_)]

theorem get?_eq_none_iff : m.get? addr = none ↔ ∀ x ∈ m, address x ≠ addr := by
  rw [get?, List.find?_eq_none]
  simp only [beq_iff_eq]
  exact Iff.rfl

theorem get?_insert : (m.insert b).get? addr = if addr = address b then some b else m.get? addr := by
  refine Option.ext fun x => ?_
  rw [get?_eq_some_iff, mem_insert]
  by_cases here : addr = address b
  · rw [if_pos here, Option.some.injEq]
    constructor
    · rintro ⟨rfl | ⟨-, other⟩, same⟩
      · rfl
      · exact absurd (same.trans here) other
    · rintro rfl
      exact ⟨.inl rfl, here.symm⟩
  · rw [if_neg here, get?_eq_some_iff]
    constructor
    · rintro ⟨rfl | ⟨hx, -⟩, same⟩
      · exact absurd same.symm here
      · exact ⟨hx, same⟩
    · rintro ⟨hx, rfl⟩
      exact ⟨.inr ⟨hx, here⟩, rfl⟩

theorem get?_erase : (m.erase addr).get? slot = if slot = addr then none else m.get? slot := by
  refine Option.ext fun x => ?_
  rw [get?_eq_some_iff, mem_erase]
  by_cases here : slot = addr
  · rw [if_pos here]
    constructor
    · rintro ⟨⟨-, other⟩, same⟩
      exact absurd (same.trans here) other
    · intro none
      cases none
  · rw [if_neg here, get?_eq_some_iff]
    constructor
    · rintro ⟨⟨hx, -⟩, same⟩
      exact ⟨hx, same⟩
    · rintro ⟨hx, rfl⟩
      exact ⟨⟨hx, here⟩, rfl⟩

theorem get?_eraseRange : (m.eraseRange lower upper).get? slot =
    if lower ≤ slot ∧ slot < upper then none else m.get? slot := by
  refine Option.ext fun x => ?_
  rw [get?_eq_some_iff, mem_eraseRange]
  by_cases inside : lower ≤ slot ∧ slot < upper
  · rw [if_pos inside]
    constructor
    · rintro ⟨⟨-, outside⟩, rfl⟩
      exact absurd inside outside
    · intro none
      cases none
  · rw [if_neg inside, get?_eq_some_iff]
    constructor
    · rintro ⟨⟨hx, -⟩, same⟩
      exact ⟨hx, same⟩
    · rintro ⟨hx, rfl⟩
      exact ⟨⟨hx, inside⟩, rfl⟩

private theorem find?_below {items : List β}
    (h : items.Pairwise fun a b => address b < address a)
    (hx : items.find? (fun b => decide (address b ≤ addr)) = some x) (hy : y ∈ items)
    (le : address y ≤ addr) : address y ≤ address x := by
  induction items with
  | nil => exact absurd hy List.not_mem_nil
  | cons c rest ih =>
      obtain ⟨below, tail⟩ := List.pairwise_cons.1 h
      rw [List.find?_cons] at hx
      split at hx
      · cases hx
        rcases List.mem_cons.1 hy with rfl | hy
        · exact Nat.le_refl _
        · exact Nat.le_of_lt (below y hy)
      · rename_i hc
        rcases List.mem_cons.1 hy with rfl | hy
        · simp [le] at hc
        · exact ih tail hx hy

/-- The closest item at or below an address has the greatest address of those. -/
theorem atOrBelow?_eq_some_iff :
    m.atOrBelow? addr = some x ↔
      x ∈ m ∧ address x ≤ addr ∧ ∀ y ∈ m, address y ≤ addr → address y ≤ address x := by
  constructor
  · intro h
    have le := List.find?_some h
    exact ⟨List.mem_of_find?_eq_some h, by simpa using le,
      fun y hy le => find?_below m.descending h hy le⟩
  · rintro ⟨hx, le, greatest⟩
    cases h : m.atOrBelow? addr with
    | none =>
        have := List.find?_eq_none.1 h x hx
        simp [le] at this
    | some y =>
        have hy : y ∈ m := List.mem_of_find?_eq_some h
        have ley : address y ≤ addr := by simpa using List.find?_some h
        have hxy := find?_below m.descending h hx le
        have hyx := greatest y hy ley
        rw [eq_of_address_eq hy hx (by omega)]

theorem atOrBelow?_eq_none_iff : m.atOrBelow? addr = none ↔ ∀ x ∈ m, addr < address x := by
  rw [atOrBelow?, List.find?_eq_none]
  simp only [decide_eq_true_eq, Nat.not_le]
  exact Iff.rfl

private theorem getLast?_above {items : List β}
    (h : items.Pairwise fun a b => address b < address a) (hx : items.getLast? = some x)
    (hy : y ∈ items) : address x ≤ address y := by
  induction items with
  | nil => exact absurd hy List.not_mem_nil
  | cons c rest ih =>
      obtain ⟨below, tail⟩ := List.pairwise_cons.1 h
      cases rest with
      | nil =>
          rw [List.getLast?_singleton] at hx
          cases hx
          cases List.mem_singleton.1 hy
          exact Nat.le_refl _
      | cons d rest =>
          rw [List.getLast?_cons_cons] at hx
          rcases List.mem_cons.1 hy with rfl | hy
          · exact Nat.le_of_lt (below x (List.mem_of_getLast? hx))
          · exact ih tail hx hy

/-- The closest item above an address has the least address of those. -/
theorem above?_eq_some_iff :
    m.above? addr = some x ↔
      x ∈ m ∧ addr < address x ∧ ∀ y ∈ m, addr < address y → address x ≤ address y := by
  have sorted := m.descending.filter fun b => decide (addr < address b)
  constructor
  · intro h
    have hx := List.mem_filter.1 (List.mem_of_getLast? h)
    refine ⟨hx.1, by simpa using hx.2, fun y hy lt => ?_⟩
    exact getLast?_above sorted h (List.mem_filter.2 ⟨hy, by simpa using lt⟩)
  · rintro ⟨hx, lt, least⟩
    have hmem : x ∈ m.items.filter fun b => decide (addr < address b) :=
      List.mem_filter.2 ⟨hx, by simpa using lt⟩
    cases h : m.above? addr with
    | none =>
        rw [above?, List.getLast?_eq_none_iff] at h
        exact absurd (h ▸ hmem) List.not_mem_nil
    | some y =>
        have hy := List.mem_filter.1 (List.mem_of_getLast? h)
        have hxy := getLast?_above sorted h hmem
        have hyx := least y hy.1 (by simpa using hy.2)
        rw [eq_of_address_eq hy.1 hx (by omega)]

theorem above?_eq_none_iff : m.above? addr = none ↔ ∀ x ∈ m, address x ≤ addr := by
  rw [above?, List.getLast?_eq_none_iff, List.filter_eq_nil_iff]
  simp only [decide_eq_true_eq, Nat.not_lt]
  exact Iff.rfl

/-! ## Ranges -/

/-- The items from an address on come first. -/
private theorem filter_le {items : List β} (descending : items.Pairwise fun a b => address b < address a) :
    (items.filter fun b => decide (lower ≤ address b)) = items.takeWhile fun b => decide (lower ≤ address b) := by
  induction items with
  | nil => rfl
  | cons c rest ih =>
      obtain ⟨below, tail⟩ := List.pairwise_cons.1 descending
      by_cases reached : lower ≤ address c
      · simp only [List.filter_cons, List.takeWhile_cons, decide_eq_true reached, if_true, ih tail]
      · have short : ∀ b ∈ c :: rest, ¬ decide (lower ≤ address b) = true := by
          intro b hb
          rw [decide_eq_true_iff]
          rcases List.mem_cons.1 hb with rfl | hb
          · exact reached
          · have := below b hb
            omega
        rw [List.filter_eq_nil_iff.2 short, List.takeWhile_cons, decide_eq_false reached,
          if_neg Bool.false_ne_true]

/-- The items below an address come last. -/
private theorem filter_lt {items : List β} (descending : items.Pairwise fun a b => address b < address a) :
    (items.filter fun b => decide (address b < upper)) = items.dropWhile fun b => decide (upper ≤ address b) := by
  induction items with
  | nil => rfl
  | cons c rest ih =>
      obtain ⟨below, tail⟩ := List.pairwise_cons.1 descending
      by_cases above : upper ≤ address c
      · have outside : ¬ address c < upper := Nat.not_lt_of_le above
        simp only [List.filter_cons, List.dropWhile_cons, decide_eq_false outside, decide_eq_true above,
          Bool.false_eq_true, if_false, if_true, ih tail]
      · have low : ∀ b ∈ c :: rest, decide (address b < upper) = true := by
          intro b hb
          rw [decide_eq_true_iff]
          rcases List.mem_cons.1 hb with rfl | hb
          · omega
          · have := below b hb
            omega
        rw [List.filter_eq_self.2 low, List.dropWhile_cons, decide_eq_false above,
          if_neg Bool.false_ne_true]

/-- The items of a range lie next to one another. -/
theorem range_eq : m.range lower upper =
    (m.items.dropWhile fun b => decide (upper ≤ address b)).takeWhile fun b => decide (lower ≤ address b) := by
  have both : m.range lower upper =
      (m.items.filter fun b => decide (address b < upper)).filter fun b => decide (lower ≤ address b) := by
    rw [List.filter_filter]
    rfl
  rw [both, filter_le (m.descending.filter _), filter_lt m.descending]

end Offloading.AddressMap
