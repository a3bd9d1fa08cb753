import Offloading.Proofs.Occupancy
import Offloading.Proofs.PlainArguments
/-!
# Lists of plain regions

The regions that one argument stands for are mapped one after the other, and they are released in the same
order. Since every place counts how many sections took a reference on it, the order matters only for empty
sections: one that was mapped before the place that it starts in was made took no reference, but it gives one
back.
-/

namespace Offloading

namespace HostSection

variable {s s' : HostSection} {earlier sections : List HostSection}

/-- The address belongs to the section. -/
def Holds (s : HostSection) (addr : Nat) : Prop := s.first ≤ addr ∧ addr < s.stop

instance {addr : Nat} : Decidable (s.Holds addr) := inferInstanceAs (Decidable (_ ∧ _))

/-- An empty section that starts in a later one of the sections starts in an earlier one too. -/
def Anchored (earlier : List HostSection) : List HostSection → Prop
  | [] => True
  | s :: rest =>
    (s.size = 0 → (∃ r ∈ rest, r.Holds s.first) → ∃ e ∈ earlier, e.Holds s.first) ∧
      Anchored (earlier ++ [s]) rest

instance decidableAnchored : ∀ earlier sections, Decidable (Anchored earlier sections)
  | _, [] => .isTrue trivial
  | earlier, s :: rest =>
    have := decidableAnchored (earlier ++ [s]) rest
    inferInstanceAs (Decidable
      ((s.size = 0 → (∃ r ∈ rest, r.Holds s.first) → ∃ e ∈ earlier, e.Holds s.first) ∧ _))

end HostSection

namespace Link

variable {l k k' : Link} {places places' new new' : List Mapping} {n n' n'' : Mapping → Nat}
  {s : HostSection} {done sections sections' : List HostSection}

/-- The sections were mapped one after the other since `l`: each place is held, at most once for every
section that starts in it, and whatever is not empty lies in a place. -/
structure Taken (done : List HostSection) (places : List Mapping) (n : Mapping → Nat) (l k : Link) : Prop
    extends Occupied places n l k where
  fit : Places places l
  held : ∀ p ∈ places, 0 < n p
  counts : ∀ p ∈ places, n p ≤ p.touches done
  lodged : ∀ s ∈ done, 0 < s.size → ∃ p ∈ places, p.hostBegin ≤ s.first ∧ s.stop ≤ p.hostEnd

/-- What mapping the sections makes of the counts: old places are held once more for each section that
starts in them, and new places at most so often. Without sections that are not anchored it is exactly so
often. -/
structure Adds (done sections : List HostSection) (places new : List Mapping) (n n' : Mapping → Nat) :
    Prop where
  old : ∀ p ∈ places, n' p = n p + p.touches sections
  atMost : ∀ p ∈ new, n' p ≤ p.touches sections
  own : ∀ p ∈ new, ∃ s ∈ sections, p.IsOf s
  exact : HostSection.Anchored done sections → ∀ p ∈ new, n' p = p.touches sections

theorem Taken.start (sound : l.Sound) : Taken [] [] n l l where
  toOccupied := .start sound
  fit := ⟨List.forall_mem_nil _, List.forall_mem_nil _, .nil, List.forall_mem_nil _, .nil,
    List.forall_mem_nil _⟩
  held := List.forall_mem_nil _
  counts := List.forall_mem_nil _
  lodged := List.forall_mem_nil _

theorem Taken.still (h : Taken done places n l k) (still : k.Still k') : Taken done places n l k' :=
  ⟨h.toOccupied.still (still.sound h.sound) still.footprint, h.fit, h.held, h.counts, h.lodged⟩

/-- One more section is mapped. -/
theorem Taken.take {base : Nat} {r : Option MappedSection} (h : Taken done places n l k)
    (few : done.length < ReferenceCount.infinite.value / 2)
    (untouched : ∀ m ∈ l.device.mappings, m.Untouched s) (word : s.stop ≤ Word.greatest)
    (mapped : Returns (Device.map s.first base s.size false true) k r k') :
    ∃ new n', Taken (done ++ [s]) (new ++ places) n' l k' ∧ Adds done [s] places new n n' := by
  have small : ∀ p ∈ places, n p < ReferenceCount.infinite.value / 2 := fun p hp =>
    Nat.lt_of_le_of_lt (Nat.le_trans (h.counts p hp) Mapping.touches_le_length) few
  obtain ⟨new, n', fit, occupied, old, fresh, lodged⟩ :=
    h.toOccupied.take h.fit h.held small untouched word mapped
  refine ⟨new, n', ⟨occupied, fit, fun p hp => ?_, fun p hp => ?_, fun e he pos => ?_⟩, old,
    fun p hp => Nat.le_of_eq (fresh p hp).2.1, fun p hp => ⟨s, List.mem_singleton_self s, (fresh p hp).1⟩,
    fun _ p hp => (fresh p hp).2.1⟩
  · rcases List.mem_append.1 hp with hp | hp
    · exact (fresh p hp).2.2
    · exact old p hp ▸ Nat.add_pos_left (h.held p hp) _
  · rw [Mapping.touches_append]
    rcases List.mem_append.1 hp with hp | hp
    · exact (fresh p hp).2.1 ▸ Nat.le_add_left _ _
    · exact old p hp ▸ Nat.add_le_add_right (h.counts p hp) _
  · rcases List.mem_append.1 he with he | he
    · obtain ⟨p, hp, inside⟩ := h.lodged e he pos
      exact ⟨p, List.mem_append_right _ hp, inside⟩
    · obtain rfl := List.mem_singleton.1 he
      exact lodged pos

/-- A section that was mapped holds no address of a place that is made later. -/
theorem Taken.not_holds {p : Mapping} {addr : Nat} (h : Taken done places n l k)
    (fit : Places (new ++ places) l) (hp : p ∈ new) (inside : p.contains addr = true) {e : HostSection}
    (he : e ∈ done) : ¬ e.Holds addr := by
  rintro ⟨lower, upper⟩
  obtain ⟨q, hq, begins, ends⟩ := h.lodged e he (by rw [HostSection.stop] at upper; omega)
  have there : q.contains addr = true := Mapping.contains_iff.2 ⟨by omega, by omega⟩
  have same := fit.eq_of_contains (List.mem_append_left _ hp) (List.mem_append_right _ hq) inside there
  exact (List.nodup_append.1 fit.nodup).2.2 p hp q hq same

theorem Adds.nil : Adds done [] places [] n n :=
  ⟨fun _ _ => rfl, List.forall_mem_nil _, List.forall_mem_nil _, fun _ => List.forall_mem_nil _⟩

/-- Sections are mapped one after the other. -/
theorem Adds.cons (taken : Taken (done ++ [s]) (new ++ places) n' l k)
    (fit : Places (new' ++ (new ++ places)) l) (first : Adds done [s] places new n n')
    (others : Adds (done ++ [s]) sections (new ++ places) new' n' n'') :
    Adds done (s :: sections) places (new' ++ new) n n'' := by
  have split (p : Mapping) : p.touches (s :: sections) = p.touches [s] + p.touches sections :=
    Mapping.touches_cons
  refine ⟨fun p hp => ?_, fun p hp => ?_, fun p hp => ?_, fun anchored p hp => ?_⟩
  · rw [others.old p (List.mem_append_right _ hp), first.old p hp, split p, Nat.add_assoc]
  · rw [split p]
    rcases List.mem_append.1 hp with hp | hp
    · exact Nat.le_add_left_of_le (others.atMost p hp)
    · exact others.old p (List.mem_append_left _ hp) ▸ Nat.add_le_add_right (first.atMost p hp) _
  · rcases List.mem_append.1 hp with hp | hp
    · obtain ⟨r, hr, own⟩ := others.own p hp
      exact ⟨r, List.mem_cons_of_mem _ hr, own⟩
    · obtain ⟨r, hr, own⟩ := first.own p hp
      exact ⟨r, List.mem_singleton.1 hr ▸ List.mem_cons_self .., own⟩
  · obtain ⟨here, later⟩ := anchored
    rw [split p]
    rcases List.mem_append.1 hp with hp | hp
    · -- a section that starts in a place that is made later would have to be empty and not anchored
      have outside : p.contains s.first = false := by
        refine Bool.eq_false_iff.2 fun inside => ?_
        by_cases empty : s.size = 0
        · obtain ⟨r, hr, own⟩ := others.own p hp
          have holds : r.Holds s.first := by
            have := Mapping.contains_iff.1 inside
            rwa [own.first, own.stop] at this
          obtain ⟨e, he, holds'⟩ := here empty ⟨r, hr, holds⟩
          exact taken.not_holds fit hp inside (List.mem_append_left _ he) holds'
        · refine taken.not_holds fit hp inside (List.mem_append_right _ (List.mem_singleton_self s)) ?_
          exact ⟨Nat.le_refl _, Nat.lt_add_of_pos_right (Nat.pos_of_ne_zero empty)⟩
      rw [Mapping.touches_none outside, Nat.zero_add]
      exact others.exact later p hp
    · rw [others.old p (List.mem_append_left _ hp), first.exact ⟨fun _ h => ?_, trivial⟩ p hp]
      obtain ⟨r, hr, -⟩ := h
      cases hr

end Link

/-! ## Regions -/

/-- The section of a plan that does not depend on host memory. -/
def RegionPlan.section? : RegionPlan → Option HostSection
  | known region => some region.hostSection
  | pointee .. => none

/-- The plan stands for a plain region. -/
def RegionPlan.Plain : RegionPlan → Prop
  | known region => region.Plain
  | pointee .. => False

instance : DecidablePred RegionPlan.Plain
  | .known region => inferInstanceAs (Decidable region.Plain)
  | .pointee .. => inferInstanceAs (Decidable False)

namespace Region

open RegionM

variable {settings : Settings} {r : Argument} {s s' t t' : RegionState} {l k : Link} {u : Unit}
  {places : List Mapping} {n : Mapping → Nat} {done : List HostSection} {plans : List RegionPlan}

/-- Mapping a region without a pointer is mapping its section, and sending what has to be sent. -/
theorem returns_mapRegion_section {b : Option Nat} (mapped : r.isMapped = true)
    (pointer : r.mapType.has .pointerAndObject = false) (explicit : r.mapType.has .implicit = false)
    (member : r.mapType.isMember = false) (h : Returns (mapRegion settings false r) s b s') :
    ∃ mapped? l, Returns (Device.map r.start r.base r.size false true) s.activation.link mapped? l ∧
      l.Still s'.activation.link := by
  obtain ⟨pointer?, s₁, mapped?, l, s₂, first, size, base, sec, hp, rfl, taken, hc, hq, -⟩ :=
    returns_mapRegion h mapped
  obtain ⟨rfl, rfl⟩ := Prod.mk.inj sec
  rcases returns_mapPointer hp with ⟨-, rfl, rfl⟩ | ⟨some, -⟩
  · rw [explicit, member] at taken
    have sent := Lasting.trans (along_copyIn.returns hc) (along_patchPointer.returns hq)
    exact ⟨mapped?, l, taken, sent.link⟩
  · rw [pointer] at some
    cases some

/-- Mapping plain regions takes their sections one after the other. -/
theorem taken_mapPlans {returned b : Option Nat} (plain : ∀ plan ∈ plans, plan.Plain)
    (h : l.Taken done places n s.activation.link)
    (few : done.length + (plans.filterMap RegionPlan.section?).length ≤ ReferenceCount.infinite.value / 2)
    (untouched : ∀ e ∈ plans.filterMap RegionPlan.section?, ∀ m ∈ l.device.mappings, m.Untouched e)
    (words : ∀ e ∈ plans.filterMap RegionPlan.section?, e.stop ≤ Word.greatest)
    (mapped : Returns (mapPlans settings false plans returned) s b s') :
    ∃ new n', l.Taken (done ++ plans.filterMap RegionPlan.section?) (new ++ places) n'
        s'.activation.link ∧
      Link.Adds done (plans.filterMap RegionPlan.section?) places new n n' := by
  induction plans generalizing s n places done returned with
  | nil =>
      obtain ⟨-, rfl⟩ := returns_pure.1 mapped
      exact ⟨[], n, by rwa [List.filterMap_nil, List.append_nil], .nil⟩
  | cons plan rest ih =>
      obtain ⟨plain, others⟩ := List.forall_mem_cons.1 plain
      cases plan with
      | pointee slot size mapType => exact plain.elim
      | known r =>
          have split : (RegionPlan.known r :: rest).filterMap RegionPlan.section? =
              r.hostSection :: rest.filterMap RegionPlan.section? := rfl
          rw [split] at few untouched words ⊢
          obtain ⟨untouched, later⟩ := List.forall_mem_cons.1 untouched
          obtain ⟨word, words⟩ := List.forall_mem_cons.1 words
          rw [List.length_cons] at few
          rw [mapPlans, returns_get_bind] at mapped
          obtain ⟨base, s₁, first, more⟩ := returns_bind.1 mapped
          obtain ⟨mapped?, l₁, took, still⟩ := returns_mapRegion_section plain.isMapped plain.pointer
            plain.explicit plain.member first
          obtain ⟨new, n₁, taken, adds⟩ := h.take (s := r.hostSection) (by omega) untouched word took
          obtain ⟨new', n', taken', adds'⟩ := ih others (taken.still still)
            (by rw [List.length_append, List.length_singleton]; omega) later words more
          refine ⟨new' ++ new, n', ?_, .cons taken taken'.fit adds adds'⟩
          rwa [List.append_assoc, List.singleton_append, ← List.append_assoc new'] at taken'

end Region

end Offloading
