import Offloading.Proofs.Balance
import Offloading.Proofs.Deeds
import Offloading.Proofs.Places
import Offloading.Proofs.Readying
/-!
# What calls do to devices

A call works on one device: it gets the device ready, which may load images and map their global
variables, and runs a region on it. Each of these moves is seen by one device only, as long as no two
devices share a memory. So every device moves by moves of its own, whichever devices are called.
-/

namespace Offloading

namespace Tenancy

/-- One thing that calls do to a device. -/
inductive Move : Tenancy → Tenancy → Prop where
  /-- A region did something. -/
  | deed {u u' : Tenancy} (h : Deed u u') : Move u u'
  /-- The device was prepared. -/
  | prepared (l : Link) (mine : List Nat) : Move ⟨l, mine⟩ ⟨(exec Device.prepare l).2, mine⟩
  /-- An image was loaded. -/
  | loaded (l : Link) (mine : List Nat) (image : Image) :
      Move ⟨l, mine⟩ ⟨{ l with
        accelerator := (exec (Accelerator.load l.device.unit image) l.accelerator).2 }, mine⟩
  /-- A global variable was mapped. -/
  | placed (l : Link) (mine : List Nat) (first target size : Nat) :
      Move ⟨l, mine⟩ ⟨(exec (Device.mapGlobal first target size) l).2, mine⟩
  /-- Libraries wait for the device, or they do not any more. -/
  | flagged (l : Link) (mine : List Nat) (pending : Bool) :
      Move ⟨l, mine⟩ ⟨{ l with device := { l.device with pending } }, mine⟩

/-- A move of the device, or something that its accelerator did for another one. -/
inductive Turn : Tenancy → Tenancy → Prop where
  | move {u u' : Tenancy} (h : Move u u') : Turn u u'
  | elsewhere {l : Link} {a : Accelerator} (mine : List Nat)
      (apart : l.accelerator.Apart l.device.unit a)
      (wellFormed : l.accelerator.WellFormed → a.WellFormed) :
      Turn ⟨l, mine⟩ ⟨{ l with accelerator := a }, mine⟩

/-- Turns, one after the other. -/
def Course : Tenancy → Tenancy → Prop := Relation.ReflTransGen Turn

instance : Lasting Course where
  refl _ := .refl
  trans := .trans

variable {u u' : Tenancy}

/-- A relation between devices that each deed keeps is kept by chains. -/
theorem Chain.link {R : Link → Link → Prop} [Lasting R] (h : u.Chain u')
    (deed : ∀ {v v' : Tenancy}, v.Deed v' → R v.link v'.link) : R u.link u'.link := by
  induction h with
  | refl => exact Lasting.refl u.link
  | tail _ last ih => exact Lasting.trans ih (deed last)

/-- A relation between devices that each turn keeps is kept by courses. -/
theorem Course.link {R : Link → Link → Prop} [Lasting R] (h : u.Course u')
    (turn : ∀ {v v' : Tenancy}, v.Turn v' → R v.link v'.link) : R u.link u'.link := by
  induction h with
  | refl => exact Lasting.refl u.link
  | tail _ last ih => exact Lasting.trans ih (turn last)

/-- A relation that allows all steps of operations is kept by whatever happens in a region. -/
theorem Deed.along {R : Link → Link → Prop} [Lasting R] (steps : Device.AllSteps R)
    (deed : u.Deed u') : R u.link u'.link := by
  cases deed with
  | operate l mine op =>
      cases op with
      | submit target content => exact steps.submit l
      | submitBatch chunks => exact steps.submitBatch l
      | retrieve target size => exact steps.retrieve l
      | recordShadow shadow => exact steps.recordShadow l
      | visitShadows lower upper erase => exact steps.visitShadows l
      | map first base size implicit updateRef => exact steps.map l
      | hold first size updateRef => exact steps.hold l
      | unmap first size force => exact steps.unmap l
      | launch entry arguments offsets kind => exact steps.launch l
  | @refused l l' e size mine h =>
      have allocated : R l (exec (Device.allocate size) l).2 := steps.allocate l
      rwa [h] at allocated
  | adopted mine h => exact steps.allocate.returns h
  | freed l own kept sub => exact steps.free l

/-- Whatever happens in a region, the device stays in balance. -/
theorem Deed.settles (deed : u.Deed u') : u.link.Settles u'.link := deed.along Device.steps_settles

/-- Whatever calls do to a device, it stays in balance, and no other device notices. -/
theorem Move.settles (move : u.Move u') : u.link.Settles u'.link := by
  cases move with
  | deed h => exact h.settles
  | prepared l mine => exact Device.steps_settles.prepare l
  | loaded l mine image => exact Link.settles_load
  | placed l mine first target size => exact Device.steps_settles.mapGlobal l
  | flagged l mine pending => exact Link.settles_of_quiet rfl rfl rfl

theorem Turn.keepsBalance (turn : u.Turn u') : u.link.KeepsBalance u'.link := by
  cases turn with
  | move h => exact h.settles.keepsBalance
  | elsewhere mine apart wellFormed => exact Link.keepsBalance_elsewhere apart wellFormed

end Tenancy

namespace Link

variable {l l' : Link}

/-- What calls did to the device and its accelerator, when no launch was under way. -/
def Course (l l' : Link) : Prop := Tenancy.Course ⟨l, []⟩ ⟨l', []⟩

instance : Lasting Course where
  refl l := Lasting.refl (R := Tenancy.Course) ⟨l, []⟩
  trans h h' := Lasting.trans (R := Tenancy.Course) h h'

theorem Course.keepsBalance (h : l.Course l') : l.KeepsBalance l' :=
  Tenancy.Course.link h Tenancy.Turn.keepsBalance

/-- What calls did to the device alone. -/
structure Moves (l l' : Link) : Prop where
  course : l.Course l'
  alone : l.Alone l'

theorem moves_of_move (h : Tenancy.Move ⟨l, []⟩ ⟨l', []⟩) : l.Moves l' :=
  ⟨.single (.move h), h.settles.toAlone⟩

theorem moves_of_chain (h : Tenancy.Chain ⟨l, []⟩ ⟨l', []⟩) : l.Moves l' :=
  ⟨h.lift (R := Tenancy.Course) fun deed => .single (.move (.deed deed)),
    h.link (R := Alone) fun deed => deed.settles.toAlone⟩

end Link

namespace Platform

variable {pl pl' : Platform} {dev d : Nat} {l l' k : Link} {R S : Link → Link → Prop}

/-- Each device moved along the relation and stayed in its place. -/
structure Each (R : Link → Link → Prop) (pl pl' : Platform) : Prop where
  places : pl'.places = pl.places
  link : ∀ dev, Option.Rel R (pl.link? dev) (pl'.link? dev)

/-- If no two devices are in one place, each one moves along the relation. -/
def EachMoves (R : Link → Link → Prop) (pl pl' : Platform) : Prop := pl.Separate → pl.Each R pl'

private theorem rel_trans [Lasting R] {o o' o'' : Option Link} (h : Option.Rel R o o')
    (h' : Option.Rel R o' o'') : Option.Rel R o o'' := by
  cases h with
  | none =>
      cases h'
      exact .none
  | some related =>
      cases h' with
      | some related' => exact .some (Lasting.trans related related')

private theorem rel_refl [Lasting R] : ∀ o : Option Link, Option.Rel R o o
  | none => .none
  | some l => .some (Lasting.refl l)

theorem exists_of_rel {o o' : Option Link} (h : Option.Rel R o o') (hl' : o' = some l') :
    ∃ l, o = some l ∧ R l l' := by
  cases h with
  | none => cases hl'
  | some related =>
      cases hl'
      exact ⟨_, rfl, related⟩

theorem Each.exists_link (h : pl.Each R pl') (hl' : pl'.link? dev = some l') :
    ∃ l, pl.link? dev = some l ∧ R l l' := exists_of_rel (h.link dev) hl'

theorem Each.mono (h : pl.Each R pl') (sub : ∀ {l l'}, R l l' → S l l') : pl.Each S pl' := by
  have weaken : ∀ {o o' : Option Link}, Option.Rel R o o' → Option.Rel S o o' := by
    intro o o' h
    cases h with
    | none => exact .none
    | some related => exact .some (sub related)
  exact ⟨h.places, fun dev => weaken (h.link dev)⟩

theorem Each.separate (h : pl.Each R pl') (separate : pl.Separate) : pl'.Separate := by
  rw [Separate, h.places]
  exact separate

instance [Lasting R] : Lasting (EachMoves R) where
  refl _ _ := ⟨rfl, fun _ => rel_refl _⟩
  trans h h' separate :=
    have first := h separate
    have second := h' (first.separate separate)
    ⟨second.places.trans first.places, fun dev => rel_trans (first.link dev) (second.link dev)⟩

/-- Devices do not move if neither slots nor accelerators change. -/
theorem each_of_links [Lasting R] (same : pl'.links = pl.links) : pl.EachMoves R pl' := by
  refine fun _ => ⟨places_congr same, fun dev => ?_⟩
  rw [link?_congr same]
  exact rel_refl _

/-- Another device keeps its tables, and its accelerator changes only by what the accelerator did for
the device that was put back. -/
private theorem link_setLink_other (hl : pl.link? dev = some l) (other : d ≠ dev)
    (hk : pl.link? d = some k) :
    (pl.setLink dev l').link? d = some k ∨
      (∃ s t, pl.devices[d]? = some s ∧ pl.devices[dev]? = some t ∧ s.accelerator = t.accelerator ∧
        s.device = k.device ∧ t.device = l.device) ∧ k.accelerator = l.accelerator ∧
      (pl.setLink dev l').link? d = some { k with accelerator := l'.accelerator } := by
  obtain ⟨slot, hs, device, ha⟩ := link?_eq_some_iff.1 hl
  obtain ⟨slot', hs', device', ha'⟩ := link?_eq_some_iff.1 hk
  have devices : (pl.setLink dev l').devices[d]? = some slot' := by
    rw [setLink, hs]
    change (pl.devices.set dev _)[d]? = _
    rw [List.getElem?_set_ne (Ne.symm other), hs']
  have accelerators : (pl.setLink dev l').accelerators =
      pl.accelerators.set slot.accelerator l'.accelerator := by rw [setLink, hs]
  by_cases together : slot'.accelerator = slot.accelerator
  · refine .inr ⟨⟨slot', slot, hs', hs, together, device', device⟩, ?_, ?_⟩
    · rw [together, ha, Option.some.injEq] at ha'
      exact ha'.symm
    · obtain ⟨lt, -⟩ := List.getElem?_eq_some_iff.1 ha
      refine link?_eq_some_iff.2 ⟨slot', devices, device', ?_⟩
      rw [accelerators, together, List.getElem?_set_self lt]
  · refine .inl (link?_eq_some_iff.2 ⟨slot', devices, device', ?_⟩)
    rw [accelerators, List.getElem?_set_ne (Ne.symm together), ha']

/-- If a device moves and no other device notices, then another device moves as it does when something is
done elsewhere. -/
theorem rel_setLink_other [Lasting R] (elsewhere : ∀ {l : Link} {a : Accelerator},
      l.accelerator.Apart l.device.unit a → (l.accelerator.WellFormed → a.WellFormed) →
      R l { l with accelerator := a })
    (separate : pl.Separate) (hl : pl.link? dev = some l) (alone : l.Alone l') (other : d ≠ dev) :
    Option.Rel R (pl.link? d) ((pl.setLink dev l').link? d) := by
  cases hk : pl.link? d with
  | none =>
      cases hk' : (pl.setLink dev l').link? d with
      | none => exact .none
      | some k' =>
          obtain ⟨n, hn, -⟩ := link?_setLink_other hl other hk'
          rw [hk] at hn
          cases hn
  | some k =>
      rcases link_setLink_other hl other hk with
        hk' | ⟨⟨s, t, hs, ht, together, device, device'⟩, same, hk'⟩
      · rw [hk']
        exact .some (Lasting.refl k)
      · have ne : k.device.unit ≠ l.device.unit := by
          rw [← device, ← device']
          exact separate.unit_ne ht hs other together
        rw [hk']
        refine .some (elsewhere ?_ fun wf => ?_)
        · rw [same]
          exact alone.apart _ ne
        · exact alone.wellFormed (same ▸ wf)

/-- If a device moves and no other device notices, then each device moves. -/
theorem each_setLink [Lasting R] (elsewhere : ∀ {l : Link} {a : Accelerator},
      l.accelerator.Apart l.device.unit a → (l.accelerator.WellFormed → a.WellFormed) →
      R l { l with accelerator := a })
    (hl : pl.link? dev = some l) (alone : l.Alone l') (h : R l l') :
    pl.EachMoves R (pl.setLink dev l') := by
  refine fun separate => ⟨places_setLink hl alone.unit, fun d => ?_⟩
  by_cases here : d = dev
  · subst here
    rw [hl, link?_setLink hl]
    exact .some h
  · exact rel_setLink_other elsewhere separate hl alone here

/-! ## Registering a library -/

/-- Registering a library flags the listed devices. -/
private theorem device_register (d : LibraryDescription) :
    (pl.register d).2.devices[dev]? = pl.devices[dev]?.map fun slot =>
      if dev < pl.listed then { slot with device := { slot.device with pending := true } } else slot := by
  change (List.map _ (pl.devices.take pl.listed) ++ pl.devices.drop pl.listed)[dev]? = _
  rw [List.getElem?_append, List.length_map, List.length_take]
  split
  · rename_i lt
    rw [List.getElem?_map, List.getElem?_take_of_lt (by omega)]
    simp only [show dev < pl.listed by omega, if_true]
  · rename_i ge
    rw [List.getElem?_drop]
    by_cases lt : dev < pl.devices.length
    · rw [show pl.listed + (dev - min pl.listed pl.devices.length) = dev by omega]
      simp only [show ¬ dev < pl.listed by omega, if_false, Option.map_id']
    · rw [List.getElem?_eq_none (by omega), List.getElem?_eq_none (by omega)]
      rfl

private theorem link?_register (d : LibraryDescription) :
    (pl.register d).2.link? dev = (pl.link? dev).map fun l =>
      if dev < pl.listed then { l with device := { l.device with pending := true } } else l := by
  rw [link?, device_register, link?]
  cases pl.devices[dev]? with
  | none => rfl
  | some slot =>
      change (pl.accelerators[(ite _ _ slot).accelerator]?).bind _ =
        ((pl.accelerators[slot.accelerator]?).bind _).map _
      by_cases listed : dev < pl.listed
      · simp only [if_pos listed]
        cases pl.accelerators[slot.accelerator]? with
        | none => rfl
        | some a => rfl
      · simp only [if_neg listed]
        cases pl.accelerators[slot.accelerator]? with
        | none => rfl
        | some a => rfl

theorem rel_map {f : Link → Link} (h : ∀ l, R l (f l)) : ∀ o : Option Link, Option.Rel R o (o.map f)
  | none => .none
  | some l => .some (h l)

/-- Registering a library moves each device as its flag does. -/
theorem each_register [Lasting R]
    (flagged : ∀ l : Link, R l { l with device := { l.device with pending := true } })
    (d : LibraryDescription) : pl.EachMoves R (pl.register d).2 := by
  refine fun _ => ⟨List.ext_getElem? fun i => ?_, fun dev => ?_⟩
  · rw [places, places, List.getElem?_map, List.getElem?_map, device_register, Option.map_map]
    refine congrArg (Option.map · _) (funext fun slot => ?_)
    dsimp only [Function.comp_apply]
    split
    · rfl
    · rfl
  · rw [link?_register]
    refine rel_map (fun l => ?_) _
    split
    · exact flagged l
    · exact Lasting.refl l

/-! ## Steps of calls -/

/-- A device that moves follows its course, and so do all others. -/
theorem course_setLink (hl : pl.link? dev = some l) (h : l.Moves l') :
    pl.EachMoves Link.Course (pl.setLink dev l') :=
  each_setLink (fun apart wellFormed => .single (.elsewhere [] apart wellFormed)) hl h.alone h.course

theorem course_onDevice {α : Type} {x : DeviceM α} (hx : ∀ l : Link, l.Moves (exec x l).2) :
    Along (EachMoves Link.Course) (onDevice dev x) :=
  along_onDevice fun _ l hl => course_setLink hl (hx l)

theorem course_record {p : Phase} : Along (EachMoves Link.Course) (record p) := by
  refine Along.modify fun pl => each_of_links ?_
  split
  · rfl
  · rfl

theorem course_loadLibrary {position : Nat} :
    Along (EachMoves Link.Course) (loadLibrary dev position) := by
  intro pl
  refine loadLibrary_at (R := EachMoves Link.Course) (fun l wrap image hl => ?_)
    (fun _ _ _ _ _ _ _ => course_onDevice fun l => Link.moves_of_move (.placed l [] _ _ _))
    fun _ _ _ _ _ _ => each_of_links rfl
  rw [onAccelerator, exec_bind_ok (exec_link hl)]
  refine Along.bind_at (R := EachMoves Link.Course) (x := modify _) ?_ fun _ => ?_
  · exact course_setLink hl (Link.moves_of_move (.loaded l [] image))
  · split
    · exact Along.pure
    · exact Along.throw

/-- A region moves its device. -/
theorem course_resume {s : CallState} {r : RegionState} (hl : s.platform.link? dev = some l)
    (h : Tenancy.Chain ⟨l, []⟩ ⟨r.activation.link, []⟩) :
    s.platform.EachMoves Link.Course (s.resume dev r).platform :=
  Lasting.trans (R := EachMoves Link.Course) (course_setLink hl (Link.moves_of_chain h))
    (each_of_links rfl)

theorem course_runConstructor {hostAddr : Nat} :
    Along (EachMoves Link.Course) (runConstructor dev hostAddr) := by
  refine along_runConstructor_nil (fun _ _ => each_of_links rfl) fun pl l entry hl => ?_
  exact course_resume (s := { platform := pl }) hl
    (Region.chain_run (s := CallState.region { platform := pl } l) rfl)

/-- Getting a device ready moves it. -/
theorem course_ready (id : Int) : Along (EachMoves Link.Course) (ready id) := by
  refine (along_deviceIndex id).bind fun dev => Along.bind ?_ fun _ => Along.pure
  apply along_checkReady
  · exact course_onDevice fun l => Link.moves_of_move (.prepared l [])
  · exact fun _ => course_loadLibrary
  · exact fun _ _ => each_of_links rfl
  · exact fun _ => course_runConstructor
  · exact course_onDevice fun l => Link.moves_of_move (.flagged l [] false)

/-! ## Calls -/

section calls

open CallM

variable {α : Type} {id : Int}

/-- Each device moves in a call. -/
private def CallMoves (s s' : CallState) : Prop := s.platform.EachMoves Link.Course s'.platform

private instance : Lasting CallMoves where
  refl s := Lasting.refl (R := EachMoves Link.Course) s.platform
  trans h h' := Lasting.trans (R := EachMoves Link.Course) h h'

private theorem callMoves_onPlatform {x : PlatformM α} (hx : Along (EachMoves Link.Course) x) :
    Along CallMoves (onPlatform x) := lifts_onPlatform.along hx fun _ _ h => h

private theorem callMoves_inRegion {x : Settings → RegionM α}
    (hx : ∀ settings s, Region.Unburdened s →
      Tenancy.Chain ⟨s.activation.link, []⟩ ⟨(exec (x settings) s).2.activation.link, []⟩) :
    Along CallMoves (inRegion dev x) :=
  along_inRegion fun s l hl => course_resume hl (hx _ (s.region l) rfl)

theorem course_dataBegin (s : CallState) :
    s.platform.EachMoves Link.Course (exec (dataBegin id) s).2.platform := by
  refine ((callMoves_onPlatform (course_ready id)).bind fun dev => Along.bind ?_ fun _ =>
    callMoves_onPlatform course_record : Along CallMoves _) s
  exact callMoves_inRegion fun _ _ none => Region.chain_of_admitted Region.admits_chained.enter
    Region.allows_sameScratch.enter none

theorem course_dataEnd (s : CallState) :
    s.platform.EachMoves Link.Course (exec (dataEnd id) s).2.platform := by
  refine ((callMoves_onPlatform (course_ready id)).bind fun dev => Along.bind ?_ fun _ =>
    callMoves_onPlatform course_record : Along CallMoves _) s
  exact callMoves_inRegion fun _ _ none => Region.chain_of_admitted Region.admits_chained.leave
    Region.allows_sameScratch.leaves.leave none

theorem course_dataUpdate (s : CallState) :
    s.platform.EachMoves Link.Course (exec (dataUpdate id) s).2.platform := by
  refine ((callMoves_onPlatform (course_ready id)).bind fun dev => Along.bind ?_ fun _ =>
    (callMoves_onPlatform course_record).bind fun _ => Along.pure : Along CallMoves _) s
  exact callMoves_inRegion fun _ _ none => Region.chain_of_admitted Region.admits_chained.refresh
    Region.allows_sameScratch.admits.refresh none

theorem course_target {hostAddr : Nat} {kind : LaunchKind} (s : CallState) :
    s.platform.EachMoves Link.Course (exec (target id hostAddr kind) s).2.platform := by
  have resolve : ∀ device, Along CallMoves (onPlatform (resolveEntry device hostAddr)) :=
    fun device => callMoves_onPlatform (along_resolveEntry fun _ _ => each_of_links rfl)
  refine ((callMoves_onPlatform (course_ready id)).bind fun dev => Along.bind ?_ fun _ =>
    callMoves_onPlatform course_record : Along CallMoves _) s
  refine CallM.along_link_bind fun s l _ => Along.bind (resolve _) (fun entry => ?_) s
  exact callMoves_inRegion fun _ _ none => Region.chain_run none

end calls

end Platform

end Offloading
