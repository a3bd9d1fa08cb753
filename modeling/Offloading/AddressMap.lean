/-!
# Maps ordered by address

A finite map from addresses to values that know their own address, kept in strictly descending
order. The neighbours of an address, the closest item at or below it and the closest item above
it, are what the interval and block tables of this library are built from.
-/

namespace Offloading

/-- A value that lies at an address of its own. -/
class Addressed (β : Type) where
  /-- Where the value lies. -/
  address : β → Nat

export Addressed (address)

/-- Values at pairwise different addresses, the highest address first. -/
structure AddressMap (β : Type) [Addressed β] where
  /-- The items, highest address first. -/
  items : List β
  /-- Addresses fall strictly from each item to every later one. -/
  descending : items.Pairwise fun a b => address b < address a

namespace AddressMap

variable {β : Type} [Addressed β]

/-- The map without items. -/
def empty : AddressMap β := ⟨[], .nil⟩

instance : EmptyCollection (AddressMap β) := ⟨empty⟩

instance : Inhabited (AddressMap β) := ⟨empty⟩

/-- Puts `b` at its place in a descending list, in the place of an item at the same address. -/
def place (b : β) : List β → List β
  | [] => [b]
  | c :: rest =>
    if address c < address b then b :: c :: rest
    else if address c = address b then b :: rest
    else c :: place b rest

theorem eq_or_mem_of_mem_place {b x : β} {items : List β} (h : x ∈ place b items) :
    x = b ∨ x ∈ items := by
  induction items with
  | nil => simpa [place] using h
  | cons c rest ih =>
    simp only [place] at h
    split at h
    · simpa using h
    · split at h
      · rcases List.mem_cons.1 h with h | h <;> simp [h]
      · rcases List.mem_cons.1 h with h | h
        · simp [h]
        · rcases ih h with h | h <;> simp [h]

theorem descending_place (b : β) {items : List β}
    (h : items.Pairwise fun a b => address b < address a) :
    (place b items).Pairwise fun a b => address b < address a := by
  induction items with
  | nil => simp [place]
  | cons c rest ih =>
    obtain ⟨below, tail⟩ := List.pairwise_cons.1 h
    simp only [place]
    split
    · rename_i low
      refine List.pairwise_cons.2 ⟨fun x hx => ?_, h⟩
      rcases List.mem_cons.1 hx with rfl | hx
      · exact low
      · exact Nat.lt_trans (below x hx) low
    · split
      · rename_i same
        exact List.pairwise_cons.2 ⟨fun x hx => same ▸ below x hx, tail⟩
      · refine List.pairwise_cons.2 ⟨fun x hx => ?_, ih tail⟩
        rcases eq_or_mem_of_mem_place hx with rfl | hx
        · omega
        · exact below x hx

/-- Adds an item; one that was at the same address is replaced. -/
def insert (m : AddressMap β) (b : β) : AddressMap β :=
  ⟨place b m.items, descending_place b m.descending⟩

/-- Keeps the items that satisfy `keep`. -/
def filter (m : AddressMap β) (keep : β → Bool) : AddressMap β :=
  ⟨m.items.filter keep, m.descending.filter keep⟩

/-- Removes the item at an address. -/
def erase (m : AddressMap β) (addr : Nat) : AddressMap β :=
  m.filter fun b => address b != addr

/-- The item at an address. -/
def get? (m : AddressMap β) (addr : Nat) : Option β :=
  m.items.find? fun b => address b == addr

/-- The closest item at or below an address. -/
def atOrBelow? (m : AddressMap β) (addr : Nat) : Option β :=
  m.items.find? fun b => address b ≤ addr

/-- The closest item above an address. -/
def above? (m : AddressMap β) (addr : Nat) : Option β :=
  (m.items.filter fun b => addr < address b).getLast?

/-- Whether an item lies in the half-open range `[lower, upper)`. -/
def inRange (lower upper : Nat) (b : β) : Bool :=
  lower ≤ address b && address b < upper

/-- The items in `[lower, upper)`, highest first. -/
def range (m : AddressMap β) (lower upper : Nat) : List β :=
  m.items.filter (inRange lower upper)

/-- Removes the items in `[lower, upper)`. -/
def eraseRange (m : AddressMap β) (lower upper : Nat) : AddressMap β :=
  m.filter fun b => !inRange lower upper b

/-- The items, highest address first. -/
def toList (m : AddressMap β) : List β := m.items

/-- The number of items. -/
def size (m : AddressMap β) : Nat := m.items.length

/-- Whether there is no item. -/
def isEmpty (m : AddressMap β) : Bool := m.items.isEmpty

end AddressMap

end Offloading
