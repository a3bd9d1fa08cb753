import Offloading.Proofs.MappingTable
import Mathlib.Data.List.Induction
/-!
# The history of a mapping table

All that can be done to a table, in any order, from the empty table on. One change adds a section, takes
one away or leaves the sections alone, and the counters follow. So at any time the sections lie apart and
the counters tell the history.
-/

namespace Offloading

namespace Mapping

/-- Host bytes in all the sections. -/
def totalLength : List Mapping → Nat
  | [] => 0
  | m :: rest => m.length + totalLength rest

theorem totalLength_perm {l k : List Mapping} (h : l.Perm k) : totalLength l = totalLength k := by
  induction h with
  | nil => rfl
  | cons m _ ih => rw [totalLength, totalLength, ih]
  | swap m n rest =>
      simp only [totalLength]
      omega
  | trans _ _ ih ih' => exact ih.trans ih'

theorem totalLength_append (l k : List Mapping) :
    totalLength (l ++ k) = totalLength l + totalLength k := by
  induction l with
  | nil => simp [totalLength]
  | cons m rest ih =>
      rw [List.cons_append, totalLength, totalLength, ih]
      omega

/-- The section lies in the address space and does not end before it begins. -/
def IsSection (m : Mapping) : Prop := m.hostBegin ≤ m.hostEnd ∧ m.hostEnd ≤ Word.greatest

end Mapping

/-- Something that is done to a mapping table. -/
inductive TableChange where
  /-- Adds a mapping, if its section is free. -/
  | insert (m : Mapping)
  /-- Removes the mapping that begins at an address. -/
  | remove (hostBegin : Nat)
  /-- Gives the mapping that begins at an address another count. -/
  | setCount (hostBegin : Nat) (count : ReferenceCount)
  /-- Counts a request that a mapping served. -/
  | recordReuse
  /-- Counts a partial overlap that was refused. -/
  | recordOverlap

namespace MappingTable

variable {t u : MappingTable} {m n : Mapping} {changes : List TableChange} {c : TableChange}

/-- The table after a change. -/
def change (t : MappingTable) : TableChange → MappingTable
  | .insert m => (t.insert m).2
  | .remove hostBegin => (t.remove hostBegin).2
  | .setCount hostBegin count =>
    match t.get? hostBegin with
    | some m => t.setCount m count
    | none => t
  | .recordReuse => t.recordReuse
  | .recordOverlap => t.recordOverlap

/-- The table after several changes, from the empty one on. -/
def after (changes : List TableChange) : MappingTable := changes.foldl change {}

/-- The mapping that a change adds to the table. -/
def accepts (t : MappingTable) : TableChange → List Mapping
  | .insert m =>
    match (t.insert m).1 with
    | .ok () => [m]
    | .error _ => []
  | _ => []

/-- The mappings that several changes add to the table, also those that were removed again. -/
def accepted (t : MappingTable) : List TableChange → List Mapping
  | [] => []
  | c :: rest => t.accepts c ++ (t.change c).accepted rest

theorem after_concat : after (changes ++ [c]) = (after changes).change c := by
  rw [after, List.foldl_append]
  rfl

theorem accepted_concat :
    t.accepted (changes ++ [c]) = t.accepted changes ++ (changes.foldl change t).accepts c := by
  induction changes generalizing t with
  | nil => simp [accepted]
  | cons d rest ih =>
      rw [List.cons_append, accepted, ih, accepted, List.append_assoc]
      rfl

/-! ## One change -/

/-- The counters agree, those of reuses and of refused overlaps apart. -/
structure SameCounters (t u : MappingTable) : Prop where
  liveBytes : u.liveBytes = t.liveBytes
  newMappings : u.stats.newMappings = t.stats.newMappings
  releases : u.stats.releases = t.stats.releases
  peakLiveBytes : u.stats.peakLiveBytes = t.stats.peakLiveBytes
  cumulativeBytes : u.stats.cumulativeBytes = t.stats.cumulativeBytes

/-- What one change can do. -/
inductive Changed (t : MappingTable) (c : TableChange) : MappingTable → Prop where
  /-- The sections stay. -/
  | kept {u : MappingTable} (none : t.accepts c = [])
      (sections : ∃ count : Mapping → ReferenceCount,
        u.toList = t.toList.map fun n => { n with refCount := count n })
      (same : t.SameCounters u) : Changed t c u
  /-- A section is added that meets no other. -/
  | grown (m : Mapping) (added : c = .insert m) (accepts : t.accepts c = [m])
      (nonempty : m.hostEnd ≠ m.hostBegin) (free : (t.lookup m.hostBegin m.length).mapping? = none) :
      Changed t c
        { entries := t.entries.insert m
          liveBytes := t.liveBytes + m.length
          stats := t.stats.recordNew m.length (t.liveBytes + m.length) }
  /-- A section is taken away. -/
  | shrunk (m : Mapping) (none : t.accepts c = []) (mem : m ∈ t) :
      Changed t c
        { entries := t.entries.erase m.hostBegin
          liveBytes := t.liveBytes - m.length
          stats := t.stats.recordRelease }

theorem SameCounters.refl (t : MappingTable) : t.SameCounters t := ⟨rfl, rfl, rfl, rfl, rfl⟩

private theorem Changed.of_entries (none : t.accepts c = []) (entries : u.entries = t.entries)
    (same : t.SameCounters u) : t.Changed c u := by
  refine .kept none ⟨Mapping.refCount, ?_⟩ same
  change u.toList = t.toList.map id
  rw [List.map_id, toList, entries]
  rfl

private theorem changed_insert (m : Mapping) : t.Changed (.insert m) (t.insert m).2 := by
  by_cases empty : m.isEmpty = true
  · have refused : t.insert m = (.error (.emptySection m.hostBegin), t) := by
      simp [insert, empty]
    rw [refused]
    exact .of_entries (by simp [accepts, refused]) rfl (.refl t)
  · have nonempty : m.hostEnd ≠ m.hostBegin := by simpa [Mapping.isEmpty] using empty
    cases free : (t.lookup m.hostBegin m.length).mapping? with
    | some n =>
        have refused : t.insert m =
            (.error (.overlap m.hostBegin m.hostEnd n.hostBegin n.hostEnd), t.recordOverlap) := by
          simp [insert, empty, free]
        rw [refused]
        exact .of_entries (by simp [accepts, refused]) rfl ⟨rfl, rfl, rfl, rfl, rfl⟩
    | none =>
        have added : t.insert m =
            (.ok (),
              { entries := t.entries.insert m
                liveBytes := t.liveBytes + m.length
                stats := t.stats.recordNew m.length (t.liveBytes + m.length) }) := by
          simp [insert, empty, free]
        rw [added]
        exact .grown m rfl (by simp [accepts, added]) nonempty free

private theorem changed_remove (hostBegin : Nat) :
    t.Changed (.remove hostBegin) (t.remove hostBegin).2 := by
  cases found : t.get? hostBegin with
  | none =>
      have absent : (t.remove hostBegin).2 = t := by simp [remove, found]
      rw [absent]
      exact .of_entries rfl rfl (.refl t)
  | some m =>
      obtain ⟨mem, rfl⟩ := AddressMap.get?_eq_some_iff.1 found
      have removed : (t.remove (address m)).2 =
          { entries := t.entries.erase m.hostBegin
            liveBytes := t.liveBytes - m.length
            stats := t.stats.recordRelease } := by
        rw [remove, found]
        rfl
      rw [removed]
      exact .shrunk m rfl mem

private theorem changed_setCount (hostBegin : Nat) (count : ReferenceCount) :
    t.Changed (.setCount hostBegin count) (t.change (.setCount hostBegin count)) := by
  rw [change]
  cases found : t.get? hostBegin with
  | none => exact .of_entries rfl rfl (.refl t)
  | some m =>
      obtain ⟨mem, -⟩ := AddressMap.get?_eq_some_iff.1 found
      change t.Changed _ (t.setCount m count)
      refine .kept rfl ⟨fun n => if n.hostBegin = m.hostBegin then count else n.refCount, ?_⟩
        ⟨rfl, rfl, rfl, rfl, rfl⟩
      have placed : (t.setCount m count).toList =
          t.toList.map fun n => if n.hostBegin = m.hostBegin then { m with refCount := count } else n :=
        AddressMap.items_insert_of_mem mem rfl
      rw [placed]
      refine List.map_congr_left fun n hn => ?_
      by_cases same : n.hostBegin = m.hostBegin
      · have : n = m := AddressMap.eq_of_address_eq hn mem same
        simp [this]
      · simp [same]

/-- Whatever is done to a table, the sections stay, or one is added or taken away. -/
theorem changed (t : MappingTable) (c : TableChange) : t.Changed c (t.change c) := by
  cases c with
  | insert m => exact changed_insert m
  | remove hostBegin => exact changed_remove hostBegin
  | setCount hostBegin count => exact changed_setCount hostBegin count
  | recordReuse => exact .of_entries rfl rfl ⟨rfl, rfl, rfl, rfl, rfl⟩
  | recordOverlap => exact .of_entries rfl rfl ⟨rfl, rfl, rfl, rfl, rfl⟩

/-! ## All changes -/

/-- What holds of the table after the changes: the sections lie apart in the address space, and the
counters tell what was done. -/
structure Accounted (changes : List TableChange) (t : MappingTable) : Prop where
  nonempty : ∀ m ∈ t, m.hostBegin < m.hostEnd
  space : ∀ m ∈ t, m.hostEnd ≤ Word.greatest
  apart : t.Apart
  live : t.liveBytes = Mapping.totalLength t.toList
  balance : t.stats.newMappings = t.stats.releases + t.size
  peak_le : ∀ k, (after (changes.take k)).liveBytes ≤ t.stats.peakLiveBytes
  peak_eq : ∃ k, (after (changes.take k)).liveBytes = t.stats.peakLiveBytes
  cumulative : t.stats.cumulativeBytes = Mapping.totalLength (accepted {} changes)

theorem accounted_nil : Accounted [] {} where
  nonempty _ hm := absurd hm AddressMap.not_mem_empty
  space _ hm := absurd hm AddressMap.not_mem_empty
  apart _ hm := absurd hm AddressMap.not_mem_empty
  live := rfl
  balance := rfl
  peak_le k := by simp [after]
  peak_eq := ⟨0, rfl⟩
  cumulative := rfl

private theorem totalLength_recount (count : Mapping → ReferenceCount) (l : List Mapping) :
    Mapping.totalLength (l.map fun n => { n with refCount := count n }) = Mapping.totalLength l := by
  induction l with
  | nil => rfl
  | cons m rest ih =>
      simp only [List.map_cons, Mapping.totalLength, ih]
      rfl

namespace Accounted

/-- The peak is the greatest of what was mapped before and what is mapped now. -/
private theorem peak_concat (h : Accounted changes (after changes))
    (peak : u.stats.peakLiveBytes = max (after changes).stats.peakLiveBytes u.liveBytes)
    (hu : u = after (changes ++ [c])) :
    (∀ k, (after ((changes ++ [c]).take k)).liveBytes ≤ u.stats.peakLiveBytes) ∧
      ∃ k, (after ((changes ++ [c]).take k)).liveBytes = u.stats.peakLiveBytes := by
  have prefixes : ∀ k, (changes ++ [c]).take k = changes.take k ∨ (changes ++ [c]).take k = changes ++ [c] := by
    intro k
    rcases Nat.lt_or_ge changes.length k with late | early
    · exact .inr (List.take_of_length_le (by simp; omega))
    · exact .inl (List.take_append_of_le_length early)
  constructor
  · intro k
    rcases prefixes k with same | same
    · have := h.peak_le k
      rw [same]
      omega
    · rw [same, ← hu]
      omega
  · obtain ⟨k, reached⟩ := h.peak_eq
    rcases Nat.le_total u.liveBytes (after changes).stats.peakLiveBytes with below | above
    · refine ⟨min k changes.length, ?_⟩
      rw [List.take_append_of_le_length (Nat.min_le_right ..), ← List.take_take, List.take_length]
      omega
    · refine ⟨changes.length + 1, ?_⟩
      rw [List.take_of_length_le (by simp), ← hu]
      omega

private theorem kept (h : Accounted changes (after changes)) (hu : u = after (changes ++ [c]))
    (none : (after changes).accepts c = [])
    (sections : ∃ count : Mapping → ReferenceCount,
      u.toList = (after changes).toList.map fun n => { n with refCount := count n })
    (same : (after changes).SameCounters u) : Accounted (changes ++ [c]) u := by
  obtain ⟨count, sections⟩ := sections
  have mem : ∀ m ∈ u, ∃ n ∈ after changes, m.hostBegin = n.hostBegin ∧ m.hostEnd = n.hostEnd := by
    intro m hm
    have listed : m ∈ u.toList := hm
    rw [sections] at listed
    obtain ⟨n, hn, rfl⟩ := List.mem_map.1 listed
    exact ⟨n, hn, rfl, rfl⟩
  have size : u.size = (after changes).size := by
    change u.toList.length = (after changes).toList.length
    rw [sections, List.length_map]
  have live : u.liveBytes ≤ (after changes).stats.peakLiveBytes := by
    have := h.peak_le changes.length
    rw [List.take_length] at this
    rw [same.liveBytes]
    exact this
  have peak := h.peak_concat (by rw [same.peakLiveBytes]; omega) hu
  refine ⟨fun m hm => ?_, fun m hm => ?_, fun m hm n hn => ?_, ?_, ?_, peak.1, peak.2, ?_⟩
  · obtain ⟨n, hn, first, last⟩ := mem m hm
    rw [first, last]
    exact h.nonempty n hn
  · obtain ⟨n, hn, -, last⟩ := mem m hm
    rw [last]
    exact h.space n hn
  · obtain ⟨k, hk, first, last⟩ := mem m hm
    obtain ⟨k', hk', first', -⟩ := mem n hn
    rw [first, last, first']
    exact h.apart k hk k' hk'
  · rw [same.liveBytes, h.live, sections, totalLength_recount]
  · rw [same.newMappings, same.releases, size]
    exact h.balance
  · rw [same.cumulativeBytes, h.cumulative, accepted_concat]
    change _ = Mapping.totalLength (_ ++ (after changes).accepts c)
    rw [none, List.append_nil]

private theorem grown (h : Accounted changes (after changes))
    (hu : { entries := (after changes).entries.insert m
            liveBytes := (after changes).liveBytes + m.length
            stats := (after changes).stats.recordNew m.length
              ((after changes).liveBytes + m.length) } = after (changes ++ [c]))
    (space : m.IsSection) (accepts : (after changes).accepts c = [m])
    (nonempty : m.hostEnd ≠ m.hostBegin)
    (free : ((after changes).lookup m.hostBegin m.length).mapping? = none) :
    Accounted (changes ++ [c]) (after (changes ++ [c])) := by
  obtain ⟨le, last⟩ := space
  have length : m.hostBegin + m.length = m.hostEnd := by
    rw [Mapping.length]
    omega
  have clear : ∀ n ∈ after changes, n.hostEnd ≤ m.hostBegin ∨ m.hostEnd ≤ n.hostBegin := by
    intro n hn
    have := h.nonempty n hn
    have := h.space n hn
    rcases h.apart.lookup_none_apart free hn with ⟨-, before⟩ | ⟨-, behind⟩
    · exact .inl (before (by omega))
    · have := behind (by omega)
      exact .inr (by omega)
  have away : ∀ n ∈ after changes, n.hostBegin ≠ m.hostBegin := by
    intro n hn
    have := h.nonempty n hn
    rcases clear n hn with before | behind
    · omega
    · omega
  have perm := AddressMap.perm_insert away
  have mem : ∀ n, n ∈ (after changes).entries.insert m → n = m ∨ n ∈ after changes := by
    intro n hn
    rcases AddressMap.mem_insert.1 hn with rfl | ⟨hn, -⟩
    · exact .inl rfl
    · exact .inr hn
  have peak := h.peak_concat rfl hu
  rw [← hu]
  refine ⟨fun n hn => ?_, fun n hn => ?_, fun n hn k hk lt below => ?_, ?_, ?_, peak.1, peak.2, ?_⟩
  · rcases mem n hn with rfl | hn
    · omega
    · exact h.nonempty n hn
  · rcases mem n hn with rfl | hn
    · exact last
    · exact h.space n hn
  · rcases mem n hn with rfl | old <;> rcases mem k hk with rfl | old'
    · omega
    · rcases clear k old' with before | behind
      · have := h.nonempty k old'
        omega
      · exact behind
    · rcases clear n old with before | behind
      · exact before
      · omega
    · exact h.apart n old k old' lt below
  · calc (after changes).liveBytes + m.length
        = Mapping.totalLength (m :: (after changes).toList) := by
          rw [h.live, Mapping.totalLength, Nat.add_comm]
      _ = Mapping.totalLength ((after changes).entries.insert m).items :=
          (Mapping.totalLength_perm perm).symm
  · have size : ((after changes).entries.insert m).items.length = (after changes).size + 1 :=
      perm.length_eq
    have := h.balance
    change (after changes).stats.newMappings + 1 =
      (after changes).stats.releases + ((after changes).entries.insert m).items.length
    omega
  · change (after changes).stats.cumulativeBytes + m.length = _
    rw [h.cumulative, accepted_concat, Mapping.totalLength_append]
    change _ = _ + Mapping.totalLength ((after changes).accepts c)
    rw [accepts]
    rfl

private theorem shrunk (h : Accounted changes (after changes))
    (hu : { entries := (after changes).entries.erase m.hostBegin
            liveBytes := (after changes).liveBytes - m.length
            stats := (after changes).stats.recordRelease } = after (changes ++ [c]))
    (none : (after changes).accepts c = []) (mem : m ∈ after changes) :
    Accounted (changes ++ [c]) (after (changes ++ [c])) := by
  have perm := AddressMap.perm_erase mem
  have live : (after changes).liveBytes =
      m.length + Mapping.totalLength ((after changes).entries.erase m.hostBegin).items := by
    rw [h.live]
    exact Mapping.totalLength_perm perm
  have reached : (after changes).liveBytes ≤ (after changes).stats.peakLiveBytes := by
    have := h.peak_le changes.length
    rwa [List.take_length] at this
  have unmoved : (after changes).stats.peakLiveBytes =
      max (after changes).stats.peakLiveBytes ((after changes).liveBytes - m.length) := by omega
  have peak := h.peak_concat unmoved hu
  rw [← hu]
  refine ⟨fun n hn => ?_, fun n hn => ?_, fun n hn k hk => ?_, ?_, ?_, ?_, ?_, ?_⟩
  · exact h.nonempty n (AddressMap.mem_erase.1 hn).1
  · exact h.space n (AddressMap.mem_erase.1 hn).1
  · exact h.apart n (AddressMap.mem_erase.1 hn).1 k (AddressMap.mem_erase.1 hk).1
  · change (after changes).liveBytes - m.length = _
    rw [live, Nat.add_sub_cancel_left]
    rfl
  · have size : (after changes).size = ((after changes).entries.erase m.hostBegin).items.length + 1 :=
      perm.length_eq
    have := h.balance
    change (after changes).stats.newMappings =
      (after changes).stats.releases + 1 + ((after changes).entries.erase m.hostBegin).items.length
    omega
  · exact peak.1
  · exact peak.2
  · change (after changes).stats.cumulativeBytes = _
    rw [h.cumulative, accepted_concat]
    change _ = Mapping.totalLength (_ ++ (after changes).accepts c)
    rw [none, List.append_nil]

/-- The account is kept by every change. -/
theorem step (h : Accounted changes (after changes)) (space : ∀ m, c = .insert m → m.IsSection) :
    Accounted (changes ++ [c]) (after (changes ++ [c])) := by
  have next : after (changes ++ [c]) = (after changes).change c := after_concat
  have cases := changed (after changes) c
  rw [← next] at cases
  generalize hu : after (changes ++ [c]) = u at cases
  cases cases with
  | kept none sections same => exact h.kept hu.symm none sections same
  | grown m added accepts nonempty free =>
      rw [← hu]
      exact h.grown hu.symm (space m added) accepts nonempty free
  | shrunk m none mem =>
      rw [← hu]
      exact h.shrunk hu.symm none mem

end Accounted

theorem accounted (changes : List TableChange)
    (space : ∀ m, TableChange.insert m ∈ changes → m.IsSection) :
    Accounted changes (after changes) := by
  induction changes using List.reverseRecOn with
  | nil => exact accounted_nil
  | append_singleton changes c ih =>
      refine (ih fun m hm => space m (List.mem_append_left _ hm)).step fun m hm => ?_
      subst hm
      exact space m (by simp)

/-- Disjoint sections in descending order, for a table whose sections do not meet. -/
theorem pairwise_apart (nonempty : ∀ m ∈ t, m.hostBegin < m.hostEnd)
    (space : ∀ m ∈ t, m.hostEnd ≤ Word.greatest) (apart : t.Apart) :
    t.toList.Pairwise fun a b => b.hostEnd ≤ a.hostBegin := by
  refine t.entries.descending.imp_of_mem fun {a b} ha hb lt => ?_
  have := nonempty a ha
  have := space a ha
  exact apart b hb a ha lt (by omega)

/-- After any changes from the empty table on, each mapping is found where its section begins, the
sections are not empty and lie apart, the highest first, the bytes mapped now are those of all sections,
as many mappings were made as are left or were removed, the peak is the most that was ever mapped, and
all mappings that were ever added account for the bytes mapped in total. Counters are natural numbers, so
this holds as long as words do not overflow. -/
theorem after_accounts (changes : List TableChange)
    (space : ∀ m, TableChange.insert m ∈ changes → m.IsSection) :
    (∀ key m, (after changes).get? key = some m ↔ m ∈ (after changes).toList ∧ m.hostBegin = key) ∧
      (∀ m ∈ (after changes).toList, m.hostBegin < m.hostEnd) ∧
      ((after changes).toList.Pairwise fun a b => b.hostBegin < a.hostBegin) ∧
      ((after changes).toList.Pairwise fun a b => b.hostEnd ≤ a.hostBegin) ∧
      (after changes).liveBytes = Mapping.totalLength (after changes).toList ∧
      (after changes).stats.newMappings = (after changes).stats.releases + (after changes).size ∧
      (∀ k, (after (changes.take k)).liveBytes ≤ (after changes).stats.peakLiveBytes) ∧
      (∃ k, (after (changes.take k)).liveBytes = (after changes).stats.peakLiveBytes) ∧
      (after changes).stats.cumulativeBytes = Mapping.totalLength (accepted {} changes) := by
  have h := accounted changes space
  refine ⟨fun key m => AddressMap.get?_eq_some_iff, h.nonempty, (after changes).entries.descending,
    pairwise_apart h.nonempty h.space h.apart, h.live, h.balance, h.peak_le, h.peak_eq, h.cumulative⟩

/-- Two neighbours are mapped, a section that meets one of them is refused, the other one is removed, and
the refused section fits then. -/
def crowdedChanges : List TableChange :=
  [.insert ⟨0, 0x1000, 0x1010, 0, .one⟩, .insert ⟨0, 0x1010, 0x1040, 0, .one⟩,
    .setCount 0x1010 ⟨7⟩, .insert ⟨0, 0x0ff8, 0x1008, 0, .one⟩, .remove 0x1000, .recordReuse,
    .insert ⟨0, 0x0ff8, 0x1008, 0, .one⟩]

theorem after_accounts_crowdedChanges :
    (∀ m, TableChange.insert m ∈ crowdedChanges → m.IsSection) ∧
      (after crowdedChanges).liveBytes = 64 ∧ (after crowdedChanges).stats.peakLiveBytes = 64 ∧
      (after crowdedChanges).stats.cumulativeBytes = 80 ∧
      (after crowdedChanges).stats.newMappings =
        (after crowdedChanges).stats.releases + (after crowdedChanges).size := by
  have space : ∀ m, TableChange.insert m ∈ crowdedChanges → m.IsSection := by
    intro m hm
    simp only [crowdedChanges, List.mem_cons, TableChange.insert.injEq, List.not_mem_nil, or_false,
      reduceCtorEq, false_or] at hm
    rcases hm with rfl | rfl | rfl | rfl <;> exact ⟨by decide, by decide⟩
  exact ⟨space, by decide, by decide, by decide, (after_accounts crowdedChanges space).2.2.2.2.2.1⟩

end MappingTable

end Offloading
