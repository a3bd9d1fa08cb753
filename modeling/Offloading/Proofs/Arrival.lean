import Mathlib.Data.List.Induction
import Offloading.Proofs.PatchedPointers
import Offloading.Proofs.Settlement
/-!
# Arrival

In which order copies and patches reach the device. The last one that has a byte for an address decides,
so a patched pointer survives everything but a copy that arrives after its last patch.
-/

namespace Offloading

/-- No address has a byte in both chunks. -/
def Chunk.Apart (c d : Chunk) : Prop := ∀ addr, c.byte? addr = none ∨ d.byte? addr = none

/-- The chunk that writes the device value of a pointer into its copy. -/
def ShadowPointer.chunk (x : ShadowPointer) : Chunk := ⟨x.deviceSlot, Word.toBytes x.deviceValue⟩

theorem ShadowPointer.length_chunk (x : ShadowPointer) : x.chunk.content.length ≤ Word.bytes :=
  Nat.le_of_eq (Word.length_toBytes x.deviceValue)

/-- The copy of the pointer holds the device value of the pointer. -/
def Link.Carries (l : Link) (x : ShadowPointer) : Prop :=
  ∀ addr v, x.chunk.byte? addr = some v → l.byte? addr = some v

namespace Parcel

variable {parcels : List Parcel} {old : ShadowTable} {x : ShadowPointer} {f : Nat → Option UInt8}

theorem mem_shadows (hx : x ∈ shadows old parcels) :
    x ∈ old ∨ ∃ p, patch p ∈ parcels ∧ p.shadow = x := by
  rcases mem_foldl_insert hx with hx | hx
  · exact .inl hx
  · obtain ⟨p, hp, same⟩ := List.mem_map.1 hx
    exact .inr ⟨p, mem_patches.1 hp, same⟩

/-- When all parcels have arrived, a patched pointer holds its device value if each copy that meets it is
followed by a patch of it. -/
theorem carried (hx : x ∈ shadows old parcels)
    (start : x ∈ old → ∀ addr v, x.chunk.byte? addr = some v → f addr = some v)
    (apart : ∀ p, patch p ∈ parcels → p.hostSlot ≠ x.hostSlot → x.chunk.Apart p.chunk)
    (spared : ∀ before c after, parcels = before ++ copy c :: after →
      (∃ p, patch p ∈ after ∧ p.hostSlot = x.hostSlot) ∨ x.chunk.Apart c) :
    ∀ addr v, x.chunk.byte? addr = some v →
      (Chunk.written (parcels.map chunk) addr).or (f addr) = some v := by
  induction parcels using List.reverseRecOn with
  | nil => exact start hx
  | append_singleton parcels y ih =>
      intro addr v hv
      have last : Chunk.written ((parcels ++ [y]).map chunk) addr =
          (y.chunk.byte? addr).or (Chunk.written (parcels.map chunk) addr) := by
        rw [List.map_append, Chunk.written_append]
        rfl
      rw [last, Option.or_assoc]
      have fewer : ∀ p, patch p ∈ parcels → p.hostSlot ≠ x.hostSlot → x.chunk.Apart p.chunk :=
        fun p hp => apart p (List.mem_append_left _ hp)
      cases y with
      | copy c =>
          rw [shadows_copy] at hx
          have none : x.chunk.Apart c := by
            refine (spared parcels c [] rfl).resolve_left ?_
            rintro ⟨p, hp, -⟩
            cases hp
          have rest := ih hx fewer (fun before d after split => ?_) addr v hv
          · rw [chunk, ((none addr).resolve_left (by rw [hv]; exact Option.some_ne_none v)),
              Option.none_or]
            exact rest
          · refine (spared before d (after ++ [copy c]) (by rw [split]; simp)).imp_left ?_
            rintro ⟨p, hp, same⟩
            refine ⟨p, (List.mem_append.1 hp).resolve_right fun hp => ?_, same⟩
            cases List.mem_singleton.1 hp
      | patch p =>
          rw [shadows_patch] at hx
          rcases AddressMap.mem_insert.1 hx with rfl | ⟨hx, other⟩
          · have here : p.chunk.byte? addr = some v := hv
            rw [chunk, here, Option.some_or]
          · have none := apart p (List.mem_append_right _ (List.mem_singleton_self _)) (Ne.symm other)
            have rest := ih hx fewer (fun before d after split => ?_) addr v hv
            · rw [chunk, ((none addr).resolve_left (by rw [hv]; exact Option.some_ne_none v)),
                Option.none_or]
              exact rest
            · refine (spared before d (after ++ [patch p]) (by rw [split]; simp)).imp_left ?_
              rintro ⟨q, hq, same⟩
              refine ⟨q, (List.mem_append.1 hq).resolve_right fun hq => ?_, same⟩
              cases List.mem_singleton.1 hq
              exact other same.symm

end Parcel

/-- The parcels reached the device one after the other, and nothing else was written. -/
structure Link.Arrived (start : Link) (parcels : List Parcel) (l : Link) : Prop where
  confined : start.Confined l
  bytes : ∀ addr, l.byte? addr =
    (Chunk.written (parcels.map Parcel.chunk) addr).or (start.blank l addr)
  shadows : l.device.shadows = Parcel.shadows start.device.shadows parcels

namespace PointerPatch

variable {p r : PointerPatch} {d d' : Device}

/-- The patch as it becomes if it is resolved late. -/
def resolved? (d : Device) (p : PointerPatch) : Option PointerPatch :=
  (d.translate? p.hostSlot Word.bytes).map fun slot =>
    { p with deviceSlot := slot, pointeeTarget := d.translate? p.pointee 0 }

theorem resolved?_eq_some_iff : p.resolved? d = some r ↔
    ∃ slot, d.translate? p.hostSlot Word.bytes = some slot ∧
      r = { p with deviceSlot := slot, pointeeTarget := d.translate? p.pointee 0 } := by
  rw [resolved?, Option.map_eq_some_iff]
  exact exists_congr fun slot => and_congr_right fun _ => eq_comm

theorem resolved?_congr (h : d'.mappings = d.mappings) : p.resolved? d' = p.resolved? d := by
  rw [resolved?, resolved?, Device.translate?, Device.translate?, Device.translate?,
    Device.translate?, h]

theorem resolve?_pending : d.resolve? p.pending = (p.resolved? d).map PointerPatch.shadow := by
  rw [Device.resolve?, resolved?, Option.map_map]
  rfl

/-- If all pending patches can be resolved, these are the patches that are made. -/
theorem resolved_all {patches : List PointerPatch} {shadows : List ShadowPointer}
    (h : (patches.map pending).mapM d.resolve? = some shadows) :
    (∀ p ∈ patches, (p.resolved? d).isSome) ∧
      shadows = (patches.filterMap (resolved? d)).map shadow := by
  induction patches generalizing shadows with
  | nil =>
      cases h
      exact ⟨fun _ hp => (nomatch hp), rfl⟩
  | cons p rest ih =>
      rw [List.map_cons, List.mapM_cons] at h
      obtain ⟨s, hs, h⟩ := Option.bind_eq_some_iff.1 h
      obtain ⟨more, hm, h⟩ := Option.bind_eq_some_iff.1 h
      cases h
      rw [resolve?_pending] at hs
      obtain ⟨r, hr, rfl⟩ := Option.map_eq_some_iff.1 hs
      obtain ⟨all, rfl⟩ := ih hm
      refine ⟨List.forall_mem_cons.2 ⟨by rw [hr, Option.isSome_some], all⟩, ?_⟩
      rw [List.filterMap_cons_some hr]
      rfl

end PointerPatch

section

variable {start : Link} {parcels : List Parcel} {a a' : Activation}

theorem Delivered.arrived (h : Delivered start parcels a) (confined : start.Confined a.link) :
    start.Arrived parcels a.link := ⟨confined, h.bytes, h.shadows⟩

theorem patches_of_copies {chunks : List Chunk} {patches : List PointerPatch} :
    Parcel.patches (chunks.map .copy ++ patches.map .patch) = patches := by
  have none : Parcel.patches (chunks.map .copy) = [] := by
    rw [Parcel.patches, List.filterMap_map]
    exact List.filterMap_eq_nil_iff.2 fun _ _ => rfl
  rw [Parcel.patches_append, none, List.nil_append, Parcel.patches, List.filterMap_map]
  exact List.filterMap_some

/-- What was queued arrives when it is flushed, all copies first. -/
theorem Queued.arrived {n : Nat} (h : Queued start parcels a) (wf : a.link.accelerator.WellFormed)
    (confined : start.Confined a.link) (flushed : Returns (Strategy.flush .bulk) a n a') :
    (∀ p ∈ Parcel.patches parcels, (p.resolved? a.link.device).isSome) ∧
      start.Arrived ((StagedCopy.chunks a.queue.copies).map .copy ++
        ((Parcel.patches parcels).filterMap (·.resolved? a.link.device)).map .patch) a'.link := by
  obtain ⟨_, l₁, sent₁, sent₂⟩ := Strategy.returns_flush flushed
  have still₁ := Device.along_sendCopies.returns sent₁
  have stored₁ := Device.stored_sendCopies wf sent₁
  rw [h.patches] at sent₂
  have middle : ∀ addr, l₁.byte? addr =
      (Chunk.written (StagedCopy.chunks a.queue.copies) addr).or (start.blank l₁ addr) := by
    intro addr
    rw [stored₁.bytes, stored₁.blank, h.bytes]
  have written : ∀ {patches : List PointerPatch} {addr}, Chunk.written
      (((StagedCopy.chunks a.queue.copies).map Parcel.copy ++ patches.map Parcel.patch).map
        Parcel.chunk) addr =
      (Chunk.written (patches.map PointerPatch.chunk) addr).or
        (Chunk.written (StagedCopy.chunks a.queue.copies) addr) := by
    intro patches addr
    rw [List.map_append, List.map_map, List.map_map, Chunk.written_append]
    congr 2
    exact List.map_id _
  have mappings : l₁.device.mappings = a.link.device.mappings := still₁.still.mappings
  rcases Device.returns_sendPatches sent₂ with ⟨none, same⟩ | ⟨shadows, _, l₂, found, batch, same⟩
  · rw [same, List.map_eq_nil_iff.1 none]
    refine ⟨fun _ hp => (nomatch hp), Lasting.trans confined stored₁.confined, fun addr => ?_, ?_⟩
    · rw [List.filterMap_nil, written, middle]
      rfl
    · rw [Parcel.shadows, patches_of_copies, stored₁.shadows, h.shadows]
      rfl
  · rw [same]
    obtain ⟨all, rfl⟩ := PointerPatch.resolved_all found
    simp only [PointerPatch.resolved?_congr mappings] at all
    have late : PointerPatch.resolved? l₁.device = PointerPatch.resolved? a.link.device :=
      funext fun p => PointerPatch.resolved?_congr mappings
    rw [late] at batch ⊢
    have stored₂ := Device.stored_submitBatch (still₁.wellFormed wf) batch
    rw [List.map_map] at stored₂
    refine ⟨all, Lasting.trans (Lasting.trans confined stored₁.confined)
      (Lasting.trans stored₂.confined (.of_memories rfl rfl)), fun addr => ?_, ?_⟩
    · rw [written, Option.or_assoc]
      have here := stored₂.bytes addr
      rw [middle, ← stored₂.blank] at here
      exact here
    · rw [Parcel.shadows, patches_of_copies, ← h.shadows, ← stored₁.shadows, ← stored₂.shadows]
      rfl

end

namespace Region

open RegionM

variable {settings : Settings} {ps : List Placement} {s s' : RegionState} {u : Unit}

/-- The placements whose pointers are patched after the section of `p` was copied, if `p` comes after
`earlier` and before `later`. -/
def following (earlier : List Placement) (p : Placement) (later : List Placement) :
    Strategy → List Placement
  | .immediate => p :: later
  | .bulk => earlier ++ p :: later

/-- The parcels are those of the placements, in the order in which they are sent. -/
structure Sequence (settings : Settings) (d : Device) (ps : List Placement)
    (parcels : List Parcel) : Prop where
  /-- A patch is that of a placement as it was, or as the device resolves it. -/
  patches : ∀ r, Parcel.patch r ∈ parcels → ∃ p ∈ ps, ∃ x, p.patch? settings = some x ∧
    (r = x ∨ x.resolved? d = some r)
  /-- A byte that is copied is one of a section, and patches of the following placements come later. -/
  copies : ∀ before c after, parcels = before ++ .copy c :: after →
    ∀ addr v, c.byte? addr = some v → ∃ earlier p later target, ps = earlier ++ p :: later ∧
      p.target? = some target ∧ Chunk.byte? ⟨target, p.content⟩ addr = some v ∧
      ∀ q ∈ following earlier p later settings.strategy, ∀ x, q.patch? settings = some x →
        ∃ r, Parcel.patch r ∈ after ∧ r.hostSlot = x.hostSlot

/-- A copy among the parcels of placements is that of a section, followed by the patch of its pointer. -/
private theorem split_copy {before after : List Parcel} {c : Chunk}
    (h : ps.flatMap (Placement.parcels settings) = before ++ .copy c :: after) :
    ∃ earlier p later target, ps = earlier ++ p :: later ∧ p.target? = some target ∧
      c = ⟨target, p.content⟩ ∧ after = ((p.patch? settings).map Parcel.patch).toList ++
        later.flatMap (Placement.parcels settings) := by
  induction ps generalizing before with
  | nil => simp at h
  | cons p rest ih =>
      rw [List.flatMap_cons] at h
      rcases append_cases h with ⟨tail, here, rfl⟩ | ⟨between, -, there⟩
      · rw [Placement.parcels] at here
        rcases append_cases here with ⟨more, one, rfl⟩ | ⟨_, -, two⟩
        · cases ht : p.target? with
          | none =>
              rw [ht] at one
              simp at one
          | some target =>
              rw [ht] at one
              cases before with
              | nil =>
                  cases one
                  exact ⟨[], p, rest, target, rfl, ht, rfl, rfl⟩
              | cons y before =>
                  have none : [] = before ++ Parcel.copy c :: more := (List.cons.inj one).2
                  simp at none
        · have sent : Parcel.copy c ∈ ((p.patch? settings).map Parcel.patch).toList := by
            rw [two]
            simp
          obtain ⟨_, -, other⟩ := Option.map_eq_some_iff.1 (Option.mem_toList.1 sent)
          cases other
      · obtain ⟨earlier, q, later, target, rfl, rest⟩ := ih there
        exact ⟨p :: earlier, q, later, target, rfl, rest⟩

private theorem mem_patch_of_placement {p : Placement} {x : PointerPatch} (hp : p ∈ ps)
    (hx : p.patch? settings = some x) : Parcel.patch x ∈ ps.flatMap (Placement.parcels settings) := by
  refine List.mem_flatMap.2 ⟨p, hp, List.mem_append_right _ (Option.mem_toList.2 ?_)⟩
  rw [hx]
  rfl

private theorem placement_of_mem_patch {x : PointerPatch}
    (h : Parcel.patch x ∈ ps.flatMap (Placement.parcels settings)) :
    ∃ p ∈ ps, p.patch? settings = some x := by
  obtain ⟨p, hp, sent⟩ := List.mem_flatMap.1 h
  exact ⟨p, hp, Placement.mem_parcels_patch sent⟩

private theorem sequence_immediate {d : Device} (hst : settings.strategy = .immediate) :
    Sequence settings d ps (ps.flatMap (Placement.parcels settings)) := by
  refine ⟨fun r hr => ?_, fun before c after split addr v hv => ?_⟩
  · obtain ⟨p, hp, patched⟩ := placement_of_mem_patch hr
    exact ⟨p, hp, r, patched, .inl rfl⟩
  · obtain ⟨earlier, p, later, target, rfl, ht, rfl, rfl⟩ := split_copy split
    refine ⟨earlier, p, later, target, rfl, ht, hv, fun q hq x hx => ?_⟩
    rw [hst] at hq
    refine ⟨x, ?_, rfl⟩
    rcases List.mem_cons.1 hq with rfl | hq
    · exact List.mem_append_left _ (Option.mem_toList.2 (by rw [hx]; rfl))
    · exact List.mem_append_right _ (mem_patch_of_placement hq hx)

private theorem sequence_bulk {d : Device} {copies : List StagedCopy}
    (hst : settings.strategy = .bulk)
    (staged : copies.map StagedCopy.chunk = Parcel.copies (ps.flatMap (Placement.parcels settings)))
    (all : ∀ x ∈ Parcel.patches (ps.flatMap (Placement.parcels settings)), (x.resolved? d).isSome) :
    Sequence settings d ps ((StagedCopy.chunks copies).map .copy ++
      ((Parcel.patches (ps.flatMap (Placement.parcels settings))).filterMap
        (·.resolved? d)).map .patch) := by
  refine ⟨fun r hr => ?_, fun before c after split addr v hv => ?_⟩
  · rcases List.mem_append.1 hr with hr | hr
    · obtain ⟨_, -, other⟩ := List.mem_map.1 hr
      cases other
    · obtain ⟨_, hr, same⟩ := List.mem_map.1 hr
      cases same
      obtain ⟨x, hx, resolved⟩ := List.mem_filterMap.1 hr
      obtain ⟨p, hp, patched⟩ := placement_of_mem_patch (Parcel.mem_patches.1 hx)
      exact ⟨p, hp, x, patched, .inr resolved⟩
  · rcases append_cases split with ⟨rest, here, rfl⟩ | ⟨_, -, there⟩
    · have mem : Parcel.copy c ∈ (StagedCopy.chunks copies).map .copy := by
        rw [here]
        simp
      obtain ⟨_, hc, same⟩ := List.mem_map.1 mem
      cases same
      have shown := StagedCopy.shows_chunks.1 ⟨c, hc, hv⟩
      rw [staged] at shown
      obtain ⟨c', hc', hv'⟩ := shown
      obtain ⟨p, hp, sent⟩ := List.mem_flatMap.1 (Parcel.mem_copies.1 hc').1
      obtain ⟨target, ht, rfl⟩ := Placement.mem_parcels_copy sent
      obtain ⟨earlier, later, rfl⟩ := List.append_of_mem hp
      refine ⟨earlier, p, later, target, rfl, ht, hv', fun q hq x hx => ?_⟩
      rw [hst] at hq
      have patched := Parcel.mem_patches.2 (mem_patch_of_placement hq hx)
      obtain ⟨r, hr⟩ := Option.isSome_iff_exists.1 (all x patched)
      refine ⟨r, List.mem_append_right _ (List.mem_map_of_mem ?_), ?_⟩
      · exact List.mem_filterMap.2 ⟨x, patched, hr⟩
      · obtain ⟨_, -, rfl⟩ := PointerPatch.resolved?_eq_some_iff.1 hr
        rfl
    · have mem : Parcel.copy c ∈ ((Parcel.patches (ps.flatMap (Placement.parcels settings))).filterMap
          (·.resolved? d)).map .patch := by
        rw [there]
        simp
      obtain ⟨_, -, other⟩ := List.mem_map.1 mem
      cases other

/-- What entering a region sends arrives in the order that the strategy gives it. -/
theorem arrived_enter (hs : s.activation.link.Sound) (idle : s.activation.queue = {})
    (entered : Returns (enter settings) s u s') :
    ∃ parcels, s.activation.link.Arrived parcels s'.activation.link ∧
      Sequence settings s'.activation.link.device (placements settings s) parcels := by
  obtain ⟨s₁, n, mapped, flushed⟩ := returns_enter entered
  have carried := carried_mapArguments (carried_nil settings.strategy hs.accelerator idle) mapped
  have still := (Strategy.along_flush settings.strategy).returns flushed
  have late : PointerPatch.resolved? s'.activation.link.device =
      PointerPatch.resolved? s₁.activation.link.device :=
    funext fun p => PointerPatch.resolved?_congr still.mappings
  have handled := carried.handled
  rw [List.nil_append] at handled
  cases hst : settings.strategy with
  | immediate =>
      rw [hst] at flushed handled
      rw [(returns_pure.1 flushed).2]
      exact ⟨_, Delivered.arrived handled carried.confined, sequence_immediate hst⟩
  | bulk =>
      rw [hst] at flushed handled
      obtain ⟨all, arrived⟩ := Queued.arrived handled carried.wellFormed carried.confined flushed
      rw [← late] at all arrived
      exact ⟨_, arrived, sequence_bulk hst handled.copies all⟩

end Region

end Offloading
