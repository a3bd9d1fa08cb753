import Offloading.OffsetList
import Offloading.Proofs.Distances
/-!
# Offset lists

An offset list can be made exactly if mappings that reach into one window lie at one distance from
their copies, and it then translates each mapped address as its mapping does.

A mapping may reach into more windows than there are. The list still claims no more of its blocks than
it has windows, and that is enough: the blocks are numbered one after the other, and any `mask + 1`
numbers in a row show all that can be seen under `mask`, with or without holes.
-/

namespace Offloading

/-! ## Numbers under a mask -/

theorem and_eq_and_of_halves {a b mask : Nat} (high : a / 2 &&& mask / 2 = b / 2 &&& mask / 2)
    (low : mask % 2 = 1 → a % 2 = b % 2) : a &&& mask = b &&& mask := by
  have halves : (a &&& mask) / 2 = (b &&& mask) / 2 := by
    rw [Nat.and_div_two, Nat.and_div_two, high]
  have ends : (a &&& mask) % 2 = (b &&& mask) % 2 := by
    have ha := Nat.and_mod_two_eq_one (a := a) (b := mask)
    have hb := Nat.and_mod_two_eq_one (a := b) (b := mask)
    omega
  omega

/-- Some number among the next `mask + 1` ones looks the same under the mask. -/
theorem exists_and_eq_next (mask base : Nat) :
    ∃ step, 0 < step ∧ step ≤ mask + 1 ∧ (base + step) &&& mask = base &&& mask := by
  induction mask using Nat.strongRecOn generalizing base with
  | ind mask ih =>
      rcases Nat.eq_zero_or_pos mask with rfl | pos
      · exact ⟨1, by omega, by omega, by rw [Nat.and_zero, Nat.and_zero]⟩
      · obtain ⟨step, some, few, same⟩ := ih (mask / 2) (by omega) (base / 2)
        rcases Nat.mod_two_eq_zero_or_one mask with even | odd
        · rcases Nat.mod_two_eq_zero_or_one base with free | carry
          -- the lowest bit does not count: it is set, or the next number with it clear is taken
          · refine ⟨1, by omega, by omega, and_eq_and_of_halves ?_ (by omega)⟩
            rw [show (base + 1) / 2 = base / 2 by omega]
          · refine ⟨2 * step - 1, by omega, by omega, and_eq_and_of_halves ?_ (by omega)⟩
            rw [show (base + (2 * step - 1)) / 2 = base / 2 + step by omega]
            exact same
        · refine ⟨2 * step, by omega, by omega, and_eq_and_of_halves ?_ (by omega)⟩
          rw [show (base + 2 * step) / 2 = base / 2 + step by omega]
          exact same

/-- Any `mask + 1` numbers in a row show all that can be seen under the mask. -/
theorem exists_and_eq_of_row (mask start number : Nat) :
    ∃ n, start ≤ n ∧ n ≤ start + mask ∧ n &&& mask = number &&& mask := by
  induction start with
  | zero =>
      refine ⟨number &&& mask, Nat.zero_le _, ?_, ?_⟩
      · rw [Nat.zero_add]
        exact Nat.and_le_right
      · rw [Nat.and_assoc, Nat.and_self]
  | succ start ih =>
      obtain ⟨n, lower, upper, same⟩ := ih
      rcases Nat.eq_or_lt_of_le lower with rfl | later
      · obtain ⟨step, some, few, next⟩ := exists_and_eq_next mask start
        exact ⟨start + step, by omega, by omega, next.trans same⟩
      · exact ⟨n, later, by omega, same⟩

/-! ## Blocks -/

section Blocks

variable {mask shift addr other : Nat}

/-- The number of the block of an address. All addresses of a block lie in one window. -/
def blockOf (shift addr : Nat) : Nat := addr >>> min shift 64

/-- Shifts of a word by 64 and more all leave nothing. -/
theorem shiftRight_min (h : mask < Word.modulus) : mask >>> shift = mask >>> min shift 64 := by
  rcases Nat.le_total shift 64 with small | large
  · rw [Nat.min_eq_left small]
  · have wide : mask < 2 ^ shift := calc
      mask < 2 ^ 64 := h
      _ ≤ 2 ^ shift := Nat.pow_le_pow_right (by decide) large
    rw [Nat.min_eq_right large, Nat.shiftRight_eq_div_pow, Nat.shiftRight_eq_div_pow,
      Nat.div_eq_of_lt wide, Nat.div_eq_of_lt h]

/-- The window of an address is the number of its block under the shifted mask. -/
theorem windowOf_eq (h : mask < Word.modulus) :
    windowOf mask shift addr = blockOf shift addr &&& mask >>> shift := by
  have under : addr &&& mask < Word.modulus := Nat.lt_of_le_of_lt Nat.and_le_right h
  rw [windowOf, shiftRight_min under, Nat.shiftRight_and_distrib, ← shiftRight_min h, blockOf]

theorem windowOf_lt (h : mask < Word.modulus) : windowOf mask shift addr < windowCount mask shift := by
  have few : windowOf mask shift addr ≤ mask >>> shift := by
    rw [windowOf_eq h]
    exact Nat.and_le_right
  exact Nat.lt_succ_of_le few

theorem blockOf_le (shift : Nat) (h : addr ≤ other) : blockOf shift addr ≤ blockOf shift other := by
  rw [blockOf, blockOf, Nat.shiftRight_eq_div_pow, Nat.shiftRight_eq_div_pow]
  exact Nat.div_le_div_right h

theorem blockOf_shiftLeft (n : Nat) : blockOf shift (n <<< min shift 64) = n :=
  Nat.shiftLeft_shiftRight n _

/-- Where a block begins, its number is reached. -/
theorem shiftLeft_le_iff {n : Nat} : n <<< min shift 64 ≤ addr ↔ n ≤ blockOf shift addr := by
  rw [blockOf, Nat.shiftRight_eq_div_pow, Nat.shiftLeft_eq,
    Nat.le_div_iff_mul_le (Nat.pow_pos (by decide))]

end Blocks

/-- The mapping has bytes in the window. -/
def Mapping.Reaches (m : Mapping) (mask : UInt64) (shift : UInt32) (window : Nat) : Prop :=
  ∃ addr, m.contains addr = true ∧ windowOf mask.toNat shift.toNat addr = window

/-! ## Claims -/

namespace OffsetList

variable {l u v : OffsetList} {S T : Nat → Prop} {offset : Int64} {hostBegin stop count addr w : Nat}
  {mask : UInt64} {shift : UInt32} {m : Mapping} {mappings done : List Mapping}

/-- The distance of a window. -/
def offset? (l : OffsetList) (w : Nat) : Option Int64 := l.windows[w]?.join

/-- No window of `S` has another distance. -/
def Free (l : OffsetList) (S : Nat → Prop) (offset : Int64) : Prop :=
  ∀ w, S w → ∀ o, l.offset? w = some o → o = offset

/-- The list `u` is `l` with one distance for all windows of `S`. -/
structure Claimed (l : OffsetList) (S : Nat → Prop) (offset : Int64) (u : OffsetList) : Prop where
  mask : u.mask = l.mask
  shift : u.shift = l.shift
  size : u.size = l.size
  inside : ∀ w, S w → u.offset? w = some offset
  outside : ∀ w, ¬ S w → u.offset? w = l.offset? w

/-- What may come of claiming the windows of `S`. -/
inductive Claims (l : OffsetList) (S : Nat → Prop) (offset : Int64) :
    Except OffsetConflict OffsetList → Prop where
  | made {u : OffsetList} (free : l.Free S offset) (claimed : l.Claimed S offset u) :
      Claims l S offset (.ok u)
  | refused (e : OffsetConflict) (taken : ¬ l.Free S offset) : Claims l S offset (.error e)

theorem Free.congr (h : l.Free S offset) (same : ∀ w, T w → S w) : l.Free T offset :=
  fun w hw => h w (same w hw)

theorem Claims.congr {x : Except OffsetConflict OffsetList} (h : l.Claims S offset x)
    (same : ∀ w, S w ↔ T w) : l.Claims T offset x := by
  obtain rfl : S = T := funext fun w => propext (same w)
  exact h

theorem Free.after (free : l.Free (fun w => S w ∨ T w) offset) (claimed : l.Claimed S offset u) :
    u.Free T offset := by
  intro w hw o found
  by_cases hs : S w
  · rw [claimed.inside w hs, Option.some.injEq] at found
    exact found.symm
  · rw [claimed.outside w hs] at found
    exact free w (.inr hw) o found

theorem Free.before (free : l.Free S offset) (claimed : l.Claimed S offset u)
    (later : u.Free T offset) : l.Free (fun w => S w ∨ T w) offset := by
  rintro w hw o found
  by_cases hs : S w
  · exact free w hs o found
  · rw [← claimed.outside w hs] at found
    exact later w (hw.resolve_left hs) o found

theorem Claimed.trans (first : l.Claimed S offset u) (second : u.Claimed T offset v) :
    l.Claimed (fun w => S w ∨ T w) offset v where
  mask := second.mask.trans first.mask
  shift := second.shift.trans first.shift
  size := second.size.trans first.size
  inside w hw := by
    by_cases ht : T w
    · exact second.inside w ht
    · rw [second.outside w ht]
      exact first.inside w (hw.resolve_right ht)
  outside w hw := by
    rw [second.outside w fun ht => hw (.inr ht)]
    exact first.outside w fun hs => hw (.inl hs)

/-- Claims that are made one after the other. -/
theorem Claims.bind {x : Except OffsetConflict OffsetList}
    {next : OffsetList → Except OffsetConflict OffsetList} (first : l.Claims S offset x)
    (second : ∀ u, l.Claimed S offset u → u.Claims T offset (next u)) :
    l.Claims (fun w => S w ∨ T w) offset (x >>= next) := by
  cases first with
  | refused e taken => exact .refused e fun free => taken (free.congr fun w => .inl)
  | made free claimed =>
      rename_i u
      show l.Claims _ offset (next u)
      generalize next u = result, second u claimed = rest
      cases rest with
      | refused e taken => exact .refused e fun free => taken (free.after claimed)
      | made later outcome => exact .made (free.before claimed later) (claimed.trans outcome)

theorem claims_claim (inside : w < l.size) : l.Claims (· = w) offset (l.claim w hostBegin offset) := by
  unfold claim
  cases found : l.windows[w]?.join with
  | none =>
      have none : l.offset? w = none := found
      refine .made ?_ ⟨rfl, rfl, Array.size_setIfInBounds, ?_, ?_⟩
      · rintro _ rfl o some
        rw [none] at some
        cases some
      · rintro _ rfl
        rw [offset?, Array.getElem?_setIfInBounds_self_of_lt inside]
        rfl
      · intro v other
        rw [offset?, Array.getElem?_setIfInBounds_ne (Ne.symm other)]
        rfl
  | some existing =>
      have some : l.offset? w = some existing := found
      show l.Claims _ _ (if existing = offset then _ else _)
      split
      · rename_i same
        subst same
        refine .made ?_ ⟨rfl, rfl, rfl, ?_, fun _ _ => rfl⟩
        · rintro _ rfl o found
          rw [some, Option.some.injEq] at found
          exact found.symm
        · rintro _ rfl
          exact some
      · rename_i other
        exact .refused _ fun free => other (free w rfl existing some)

/-! ## Rows of blocks -/

/-- The list has the windows that the mask and the shift select. -/
structure Shaped (l : OffsetList) (mask : UInt64) (shift : UInt32) : Prop where
  size : l.size = windowCount mask.toNat shift.toNat
  mask : l.mask = mask
  shift : l.shift = shift

theorem shaped_empty : (empty mask shift).Shaped mask shift := ⟨Array.size_replicate, rfl, rfl⟩

theorem Claimed.shaped (h : l.Claimed S offset u) (shaped : l.Shaped mask shift) :
    u.Shaped mask shift where
  mask := h.mask.trans shaped.mask
  shift := h.shift.trans shaped.shift
  size := h.size.trans shaped.size

namespace Shaped

theorem window (h : l.Shaped mask shift) : l.window addr = windowOf mask.toNat shift.toNat addr := by
  rw [OffsetList.window, h.mask, h.shift]

theorem window_lt (h : l.Shaped mask shift) : l.window addr < l.size := by
  rw [h.window, h.size]
  exact windowOf_lt mask.toNat_lt

theorem nextWindow (h : l.Shaped mask shift) :
    l.nextWindow addr = (blockOf shift.toNat addr + 1) <<< min shift.toNat 64 := by
  rw [OffsetList.nextWindow, h.shift, blockOf]

end Shaped

/-- The windows of the addresses from `addr` to before `stop` that lie in the next `count` blocks. -/
def Row (mask : UInt64) (shift : UInt32) (stop count addr w : Nat) : Prop :=
  ∃ a, addr ≤ a ∧ a < stop ∧ blockOf shift.toNat a < blockOf shift.toNat addr + count ∧
    windowOf mask.toNat shift.toNat a = w

/-- A row consists of the block in which it begins and the row from the next block on. -/
theorem row_succ (proper : addr < stop) :
    Row mask shift stop (count + 1) addr w ↔ w = windowOf mask.toNat shift.toNat addr ∨
      Row mask shift stop count ((blockOf shift.toNat addr + 1) <<< min shift.toNat 64) w := by
  constructor
  · rintro ⟨a, lower, upper, near, rfl⟩
    rcases Nat.eq_or_lt_of_le (blockOf_le _ lower) with same | later
    · rw [windowOf_eq mask.toNat_lt, windowOf_eq mask.toNat_lt, same]
      exact .inl rfl
    · refine .inr ⟨a, shiftLeft_le_iff.2 later, upper, ?_, rfl⟩
      rw [blockOf_shiftLeft]
      omega
  · rintro (rfl | ⟨a, lower, upper, near, rfl⟩)
    · exact ⟨addr, Nat.le_refl _, proper, by omega, rfl⟩
    · have later := shiftLeft_le_iff.1 lower
      rw [blockOf_shiftLeft] at near
      have above : addr ≤ a := by
        refine Nat.le_of_not_lt fun below => ?_
        have := blockOf_le shift.toNat (Nat.le_of_lt below)
        omega
      exact ⟨a, above, upper, by omega, rfl⟩

theorem claims_claimFrom (shaped : l.Shaped mask shift) (proper : addr < stop) :
    l.Claims (Row mask shift stop count addr) offset
      (l.claimFrom hostBegin stop offset count addr) := by
  induction count generalizing l addr with
  | zero =>
      have nothing : ∀ w, ¬ Row mask shift stop 0 addr w := by
        rintro w ⟨a, lower, upper, near, rfl⟩
        have := blockOf_le shift.toNat lower
        omega
      exact .made (fun w hw => (nothing w hw).elim)
        ⟨rfl, rfl, rfl, fun w hw => (nothing w hw).elim, fun _ _ => rfl⟩
  | succ count ih =>
      refine Claims.congr ?_ fun w => (row_succ proper).symm
      rw [← shaped.window]
      refine (claims_claim shaped.window_lt).bind fun u claimed => ?_
      have kept := claimed.shaped shaped
      show u.Claims _ offset (if stop ≤ u.nextWindow addr then _ else _)
      rw [kept.nextWindow]
      split
      · rename_i last
        have nothing : ∀ w, ¬ Row mask shift stop count
            ((blockOf shift.toNat addr + 1) <<< min shift.toNat 64) w := by
          rintro w ⟨a, lower, upper, near, rfl⟩
          omega
        exact .made (fun w hw => (nothing w hw).elim)
          ⟨rfl, rfl, rfl, fun w hw => (nothing w hw).elim, fun _ _ => rfl⟩
      · rename_i more
        exact ih kept (Nat.lt_of_not_le more)

/-- As many blocks as there are windows show all windows of a section. -/
theorem row_windows {start : Nat} (proper : start < stop) :
    Row mask shift stop (windowCount mask.toNat shift.toNat) start w ↔
      ∃ a, start ≤ a ∧ a < stop ∧ windowOf mask.toNat shift.toNat a = w := by
  constructor
  · rintro ⟨a, lower, upper, -, reached⟩
    exact ⟨a, lower, upper, reached⟩
  · rintro ⟨a, lower, upper, rfl⟩
    obtain ⟨n, first, last, same⟩ := exists_and_eq_of_row (mask.toNat >>> shift.toNat)
      (blockOf shift.toNat start) (blockOf shift.toNat a)
    rw [← windowOf_eq mask.toNat_lt] at same
    by_cases near : blockOf shift.toNat a < blockOf shift.toNat start + windowCount mask.toNat shift.toNat
    · exact ⟨a, lower, upper, near, rfl⟩
    · rw [windowCount] at near ⊢
      rcases Nat.eq_or_lt_of_le first with rfl | later
      · refine ⟨start, Nat.le_refl _, proper, by omega, ?_⟩
        rw [windowOf_eq mask.toNat_lt]
        exact same
      -- the block `n` begins inside of the section, and it has the window of `a`
      · refine ⟨n <<< min shift.toNat 64, ?_, ?_, ?_, ?_⟩
        · refine Nat.le_of_not_lt fun below => ?_
          have := blockOf_le shift.toNat (Nat.le_of_lt below)
          rw [blockOf_shiftLeft] at this
          omega
        · refine Nat.lt_of_le_of_lt (shiftLeft_le_iff.2 ?_) upper
          omega
        · rw [blockOf_shiftLeft]
          omega
        · rw [windowOf_eq mask.toNat_lt, blockOf_shiftLeft]
          exact same

/-! ## Lists of mappings -/

/-- Adding a mapping claims the windows that it reaches. -/
theorem claims_add (shaped : l.Shaped mask shift) (proper : m.hostBegin < m.hostEnd) :
    l.Claims (m.Reaches mask shift) m.bias (l.add m) := by
  have stop : max m.hostEnd (m.hostBegin + 1) = m.hostEnd := Nat.max_eq_left proper
  rw [add, stop]
  refine (claims_claimFrom shaped proper).congr fun w => ?_
  rw [shaped.size, row_windows proper]
  constructor
  · rintro ⟨a, lower, upper, reached⟩
    exact ⟨a, Mapping.contains_iff.2 ⟨lower, upper⟩, reached⟩
  · rintro ⟨a, inside, reached⟩
    obtain ⟨lower, upper⟩ := Mapping.contains_iff.1 inside
    exact ⟨a, lower, upper, reached⟩

/-- Mapped addresses in one window lie at one distance from their copies. -/
def Agree (mask : UInt64) (shift : UInt32) (mappings : List Mapping) : Prop :=
  ∀ m ∈ mappings, ∀ n ∈ mappings, ∀ a b, m.contains a = true → n.contains b = true →
    windowOf mask.toNat shift.toNat a = windowOf mask.toNat shift.toNat b → m.offset = n.offset

/-- The list that holds what the mappings need, and nothing else. -/
structure Built (mask : UInt64) (shift : UInt32) (mappings : List Mapping) (l : OffsetList) :
    Prop where
  shaped : l.Shaped mask shift
  offset? : ∀ w o, l.offset? w = some o ↔ ∃ m ∈ mappings, m.Reaches mask shift w ∧ m.bias = o

theorem built_empty : Built mask shift [] (empty mask shift) := by
  refine ⟨shaped_empty, fun w o => ?_⟩
  have none : (empty mask shift).offset? w = none := by
    rw [OffsetList.offset?, empty, Array.getElem?_replicate]
    split
    · rfl
    · rfl
  rw [none]
  simp

theorem Built.agree (h : Built mask shift mappings l) : Agree mask shift mappings := by
  intro m hm n hn a b inside inside' same
  have left := (h.offset? _ m.bias).2 ⟨m, hm, ⟨a, inside, same⟩, rfl⟩
  rw [(h.offset? _ n.bias).2 ⟨n, hn, ⟨b, inside', rfl⟩, rfl⟩, Option.some.injEq] at left
  exact Mapping.bias_eq_iff.1 left.symm

theorem Built.add (h : Built mask shift done l) (free : l.Free (m.Reaches mask shift) m.bias)
    (claimed : l.Claimed (m.Reaches mask shift) m.bias u) : Built mask shift (done ++ [m]) u := by
  refine ⟨claimed.shaped h.shaped, fun w o => ?_⟩
  simp only [List.mem_append, List.mem_singleton, or_and_right, exists_or, exists_eq_left]
  by_cases reached : m.Reaches mask shift w
  · rw [claimed.inside w reached, Option.some.injEq]
    constructor
    · rintro rfl
      exact .inr ⟨reached, rfl⟩
    · rintro (⟨n, hn, reached', rfl⟩ | ⟨-, rfl⟩)
      · exact (free w reached _ ((h.offset? w _).2 ⟨n, hn, reached', rfl⟩)).symm
      · rfl
  · rw [claimed.outside w reached, h.offset? w o]
    constructor
    · exact .inl
    · rintro (earlier | ⟨reached', -⟩)
      · exact earlier
      · exact absurd reached' reached

/-- A mapping whose windows are not free is at odds with one that came before it. -/
theorem Built.free (h : Built mask shift done l) (agree : Agree mask shift mappings)
    (earlier : ∀ n ∈ done, n ∈ mappings) (hm : m ∈ mappings) :
    l.Free (m.Reaches mask shift) m.bias := by
  intro w reached o found
  obtain ⟨n, hn, ⟨b, inside', same⟩, rfl⟩ := (h.offset? w o).1 found
  obtain ⟨a, inside, rfl⟩ := reached
  exact Mapping.bias_eq_iff.2 (agree n (earlier n hn) m hm b a inside' inside same)

/-- The list is made if the mappings agree. -/
theorem foldlM_add (h : Built mask shift done l) (proper : ∀ m ∈ mappings, m.hostBegin < m.hostEnd) :
    (∃ e, mappings.foldlM add l = .error e) ∧ ¬ Agree mask shift (done ++ mappings) ∨
      ∃ u, mappings.foldlM add l = .ok u ∧ Built mask shift (done ++ mappings) u := by
  induction mappings generalizing l done with
  | nil =>
      refine .inr ⟨l, rfl, ?_⟩
      rw [List.append_nil]
      exact h
  | cons m rest ih =>
      obtain ⟨hm, others⟩ := List.forall_mem_cons.1 proper
      rw [List.foldlM_cons]
      have claims := claims_add h.shaped hm
      generalize l.add m = result at claims
      cases claims with
      | refused e taken =>
          refine .inl ⟨⟨e, rfl⟩, fun agree => taken (h.free agree ?_ ?_)⟩
          · exact fun n hn => List.mem_append_left _ hn
          · exact List.mem_append_right _ List.mem_cons_self
      | made free claimed =>
          have next := ih (h.add free claimed) others
          rw [List.append_assoc, List.singleton_append] at next
          exact next

/-! ## Exactness -/

/-- The window holds a section. -/
def Uses (l : OffsetList) (w : Nat) : Prop := ∃ o, l.windows[w]? = some (some o)

/-- The list translates for the mappings as they do themselves, and for nothing else. -/
structure Serves (mask : UInt64) (shift : UInt32) (mappings : List Mapping) (l : OffsetList) :
    Prop where
  /-- It has the windows that it was made for. -/
  shaped : l.Shaped mask shift
  /-- The windows with a distance are those that a mapped address lies in. -/
  used : ∀ w, l.Uses w ↔ ∃ m ∈ mappings, m.Reaches mask shift w
  /-- Mapped addresses become those of their copies. -/
  mapped : ∀ m ∈ mappings, ∀ addr, m.contains addr = true → l.translate addr = some (m.translate addr)
  /-- Addresses in windows without a distance stay. -/
  unmapped : ∀ addr, addr < Word.modulus → ¬ l.Uses (l.window addr) → l.translate addr = some addr
  /-- Each address has a window. -/
  window : ∀ addr, l.window addr < l.size

theorem uses_iff : l.Uses w ↔ ∃ o, l.offset? w = some o := by
  unfold Uses offset?
  simp only [Option.join_eq_some_iff]

theorem translate_eq (inside : l.window addr < l.size) :
    l.translate addr =
      some (UInt64.ofNat addr + ((l.offset? (l.window addr)).getD 0).toUInt64).toNat := by
  have entry : l.windows[l.window addr]? = some l.windows[l.window addr] :=
    Array.getElem?_eq_getElem inside
  rw [translate, offset?, entry]
  rfl

theorem Built.serves (h : Built mask shift mappings l) : Serves mask shift mappings l where
  shaped := h.shaped
  used w := by
    rw [uses_iff]
    constructor
    · rintro ⟨o, found⟩
      obtain ⟨m, hm, reached, -⟩ := (h.offset? w o).1 found
      exact ⟨m, hm, reached⟩
    · rintro ⟨m, hm, reached⟩
      exact ⟨m.bias, (h.offset? w m.bias).2 ⟨m, hm, reached, rfl⟩⟩
  mapped m hm addr inside := by
    have reached : m.Reaches mask shift (l.window addr) := ⟨addr, inside, h.shaped.window.symm⟩
    have found := (h.offset? _ m.bias).2 ⟨m, hm, reached, rfl⟩
    rw [translate_eq h.shaped.window_lt, found, Option.getD_some, Mapping.add_bias]
  unmapped addr bound unused := by
    have none : l.offset? (l.window addr) = none := by
      rw [Option.eq_none_iff_forall_ne_some]
      exact fun o found => unused (uses_iff.2 ⟨o, found⟩)
    rw [translate_eq h.shaped.window_lt, none, Option.getD_none]
    show some (UInt64.ofNat addr + 0).toNat = some addr
    rw [UInt64.add_zero, UInt64.toNat_ofNat_of_lt' bound]
  window addr := h.shaped.window_lt

/-- The list of mappings can be made exactly if those that reach into one window lie at one distance
from their copies, and then it translates all mapped addresses as the mappings do. -/
theorem ofMappings_exact (mask : UInt64) (shift : UInt32) (mappings : List Mapping)
    (proper : ∀ m ∈ mappings, m.hostBegin < m.hostEnd) :
    ((∃ l, ofMappings mask shift mappings = .ok l) ↔ Agree mask shift mappings) ∧
      ∀ l, ofMappings mask shift mappings = .ok l → Serves mask shift mappings l := by
  rcases foldlM_add built_empty proper with ⟨⟨e, failed⟩, conflict⟩ | ⟨u, ran, built⟩
  · rw [List.nil_append] at conflict
    rw [ofMappings, failed]
    refine ⟨⟨?_, fun agree => absurd agree conflict⟩, ?_⟩
    · rintro ⟨l, ⟨⟩⟩
    · rintro l ⟨⟩
  · rw [List.nil_append] at built
    rw [ofMappings, ran]
    refine ⟨⟨fun _ => built.agree, fun _ => ⟨u, rfl⟩⟩, ?_⟩
    rintro l ⟨⟩
    exact built.serves

/-- Sections may span windows, and share them if their copies lie at one distance. -/
theorem ofMappings_spanning :
    (∀ m ∈ [Mapping.mk 0x1800 0x1800 0x2800 0x11800 .one, Mapping.mk 0x2f00 0x2f00 0x2f10 0x12f00 .one],
        m.hostBegin < m.hostEnd) ∧
      Agree 0x5000 12
        [Mapping.mk 0x1800 0x1800 0x2800 0x11800 .one, Mapping.mk 0x2f00 0x2f00 0x2f10 0x12f00 .one] ∧
      Serves 0x5000 12
        [Mapping.mk 0x1800 0x1800 0x2800 0x11800 .one, Mapping.mk 0x2f00 0x2f00 0x2f10 0x12f00 .one]
        ⟨0x5000, 12, #[some 0x10000, some 0x10000, none, none, none, none]⟩ := by
  have proper : ∀ m ∈ [Mapping.mk 0x1800 0x1800 0x2800 0x11800 .one,
      Mapping.mk 0x2f00 0x2f00 0x2f10 0x12f00 .one], m.hostBegin < m.hostEnd := by decide
  have made := ofMappings_exact 0x5000 12 _ proper
  exact ⟨proper, made.1.1 ⟨_, rfl⟩, made.2 _ rfl⟩

end OffsetList

end Offloading
