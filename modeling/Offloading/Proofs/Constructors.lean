import Offloading.Proofs.EntryCache
import Mathlib.Data.List.Forall2
import Mathlib.Data.List.Nodup
/-!
# Constructors

A check of a device loads the libraries that wait and then runs their constructors, until one fails. A
library is loaded at most once on a device, and only the check that loads it gets to run its constructors:
what that check does not complete is not run later.
-/

namespace Offloading

/-- A constructor of a library, on a device. -/
structure ConstructorRun where
  /-- The number of the device. -/
  device : Nat
  /-- The number of the library. -/
  library : Nat
  /-- The position of the constructor in the library. -/
  index : Nat
  deriving DecidableEq

/-- What one check of a device did. -/
structure Check where
  /-- The number of the device. -/
  device : Nat
  /-- Whether the check succeeded. -/
  succeeded : Bool
  /-- The libraries that it loaded, in order. -/
  loaded : List Library
  /-- The constructors that it ran to their end, in order. -/
  ran : List Nat

namespace Check

variable {c : Check} {l : Library} {r : ConstructorRun}

/-- The constructors of the libraries that the check loaded, in order. -/
def constructors (c : Check) : List Nat := c.loaded.flatMap Library.constructors

/-- Where these constructors come from. -/
def due (c : Check) : List ConstructorRun :=
  c.loaded.flatMap fun l => (List.range l.constructors.length).map fun i => ⟨c.device, l.id, i⟩

/-- The constructors that the check completed. -/
def completed (c : Check) : List ConstructorRun := c.due.take c.ran.length

/-- Whether the check loaded the library of number `id` on the device of number `n`. -/
def Loads (c : Check) (n id : Nat) : Prop := c.device = n ∧ ∃ l ∈ c.loaded, l.id = id

theorem length_due : c.due.length = c.constructors.length := by
  simp [due, constructors, List.length_flatMap]

theorem mem_due {n id i : Nat} :
    ⟨n, id, i⟩ ∈ c.due ↔ c.device = n ∧ ∃ l ∈ c.loaded, l.id = id ∧ i < l.constructors.length := by
  simp only [due, List.mem_flatMap, List.mem_map, List.mem_range, ConstructorRun.mk.injEq]
  constructor
  · rintro ⟨l, hl, i, hi, device, id, rfl⟩
    exact ⟨device, l, hl, id, hi⟩
  · rintro ⟨device, l, hl, id, hi⟩
    exact ⟨l, hl, i, hi, device, id, rfl⟩

theorem loads_of_due (h : r ∈ c.due) : c.Loads r.device r.library := by
  obtain ⟨device, l, hl, id, -⟩ := mem_due.1 h
  exact ⟨device, l, hl, id⟩

theorem nodup_due (h : (c.loaded.map Library.id).Nodup) : c.due.Nodup := by
  rw [due, List.nodup_flatMap]
  constructor
  · intro l _
    apply List.Nodup.map _ List.nodup_range
    intro i j same
    simpa using same
  · apply (List.pairwise_map.1 h).imp
    intro l l' apart r hr hr'
    obtain ⟨i, -, rfl⟩ := List.mem_map.1 hr
    obtain ⟨j, -, same⟩ := List.mem_map.1 hr'
    exact apart (congrArg ConstructorRun.library same).symm

end Check

/-! ## Running constructors -/

namespace Platform

variable {pl pl' : Platform} {dev n : Nat} {run : Nat → PlatformM Unit} {l l' : Library}
  {libraries libraries' : List Library}

/-- The constructors that run to their end before one fails. -/
def ranToEnd (run : Nat → PlatformM Unit) : List Nat → Platform → List Nat
  | [], _ => []
  | c :: rest, pl =>
    match exec (run c) { pl with constructorLog := pl.constructorLog ++ [c] } with
    | (.ok _, pl') => c :: ranToEnd run rest pl'
    | (.error _, _) => []

theorem ranToEnd_initial (constructors : List Nat) :
    ranToEnd run constructors pl <+: constructors := by
  induction constructors generalizing pl with
  | nil => exact List.nil_prefix
  | cons c rest ih =>
      rw [ranToEnd]
      split
      · exact List.cons_prefix_cons.2 ⟨rfl, ih⟩
      · exact List.nil_prefix

theorem ranToEnd_of_returns {constructors : List Nat} {u : Unit}
    (h : Returns (runConstructors run constructors) pl u pl') :
    ranToEnd run constructors pl = constructors := by
  induction constructors generalizing pl with
  | nil => rfl
  | cons c rest ih =>
      rw [runConstructors, returns_modify_bind, returns_bind] at h
      obtain ⟨_, pl₁, ran, h⟩ := h
      have run : exec (run c) { pl with constructorLog := pl.constructorLog ++ [c] } = (.ok (), pl₁) := ran
      rw [ranToEnd, run]
      exact congrArg (c :: ·) (ih h)

/-! ## Loading libraries -/

/-- The libraries and the number of the next one. -/
def shelf (pl : Platform) : List Library × Nat := (pl.libraries, pl.nextLibrary)

theorem shelf_of_entries (h : pl'.entries = pl.entries) : pl'.shelf = pl.shelf := by
  simp only [entries, Prod.mk.injEq] at h
  rw [shelf, shelf, h.1, h.2.2]

/-- Of the libraries before and after a check, those that the check loaded. -/
def loadedSince (n : Nat) (libraries libraries' : List Library) : List Library :=
  ((libraries.zip libraries').filter fun (l, l') =>
    !l.table.isLoaded n && l'.table.isLoaded n).map Prod.snd

/-- What a check of the device of number `n` does to a library. -/
def LoadsTo (n : Nat) (l l' : Library) : Prop :=
  l' = l ∨ l.table.isLoaded n = false ∧ l'.table.isLoaded n = true ∧ ∃ symbols, l' = l.loadedOn n symbols

/-- The table has one image and one target for each device. -/
def Sized (l : Library) : Prop := l.table.images.length = l.table.targets.length

theorem Sized.inside (h : Sized l) (image : (l.table.image? n).isSome) :
    n < l.table.targets.length := by
  rw [← h]
  by_contra outside
  rw [SymbolTable.image?, List.getElem?_eq_none (Nat.le_of_not_lt outside)] at image
  cases image

theorem isLoaded_loadedOn {symbols : Image} (h : Sized l) (image : (l.table.image? n).isSome) :
    (l.loadedOn n symbols).table.isLoaded n = true := by
  simp [Library.loadedOn, SymbolTable.load, SymbolTable.isLoaded, SymbolTable.target?, h.inside image]

theorem loadedSince_cons :
    loadedSince n (l :: libraries) (l' :: libraries') =
      (if !l.table.isLoaded n && l'.table.isLoaded n then [l'] else []) ++
        loadedSince n libraries libraries' := by
  rw [loadedSince, List.zip_cons_cons, List.filter_cons]
  dsimp only
  split
  · rfl
  · rfl

theorem loadedSince_self (libraries : List Library) : loadedSince n libraries libraries = [] := by
  induction libraries with
  | nil => rfl
  | cons l rest ih => simp [loadedSince_cons, ih]

theorem loadsTo_self (libraries : List Library) : libraries.Forall₂ (LoadsTo n) libraries :=
  List.forall₂_same.2 fun _ _ => .inl rfl

/-- The other libraries are loaded after the first one. -/
theorem exec_loadLibraries_cons {position : Nat} {rest first : List Nat} {pl₁ : Platform}
    (h : exec (loadLibrary dev position) pl = (.ok first, pl₁)) :
    exec (loadLibraries dev (position :: rest)) pl =
      ((exec (loadLibraries dev rest) pl₁).1.map (first ++ ·), (exec (loadLibraries dev rest) pl₁).2) := by
  rw [loadLibraries, exec_bind_ok h, exec_bind]
  rcases exec (loadLibraries dev rest) pl₁ with ⟨e | others, pl₂⟩
  · rfl
  · rfl

/-- Loading the libraries at the given positions loads `todo`, which stands after `front`, one library
after the other, and gives the constructors of those that were loaded. -/
def Brings (dev n : Nat) (positions : List Nat) (front todo : List Library) (pl : Platform) : Prop :=
  ∃ todo', (exec (loadLibraries dev positions) pl).2.shelf = (front ++ todo', pl.nextLibrary) ∧
    todo.Forall₂ (LoadsTo n) todo' ∧
    ∀ constructors, (exec (loadLibraries dev positions) pl).1 = .ok constructors →
      constructors = (loadedSince n todo todo').flatMap Library.constructors

/-- When the first library has become `l'`, the others are loaded. -/
theorem Brings.cons {position : Nat} {rest first : List Nat} {front todo : List Library}
    {pl₁ : Platform} (ran : exec (loadLibrary dev position) pl = (.ok first, pl₁))
    (loads : LoadsTo n l l') (next : pl₁.nextLibrary = pl.nextLibrary)
    (own : first = (if !l.table.isLoaded n && l'.table.isLoaded n then [l'] else []).flatMap
      Library.constructors)
    (others : Brings dev n rest (front ++ [l']) todo pl₁) :
    Brings dev n (position :: rest) front (l :: todo) pl := by
  obtain ⟨todo', shelf, loads', given⟩ := others
  rw [Brings, exec_loadLibraries_cons ran]
  refine ⟨l' :: todo', ?_, .cons loads loads', fun constructors h => ?_⟩
  · rw [shelf, next, List.append_assoc, List.singleton_append]
  · rcases run : (exec (loadLibraries dev rest) pl₁).1 with e | others'
    · rw [run] at h
      cases h
    · rw [run] at h
      cases h
      rw [loadedSince_cons, List.flatMap_append, ← own, ← given others' run]

theorem brings_loadLibraries (todo front : List Library) (libraries : pl.libraries = front ++ todo)
    (sized : ∀ l ∈ todo, Sized l) (number : pl.number? dev = some n) :
    Brings dev n (List.range' front.length todo.length) front todo pl := by
  induction todo generalizing front pl with
  | nil =>
      refine ⟨[], Prod.ext libraries rfl, .nil, fun constructors h => ?_⟩
      cases h
      rfl
  | cons x rest ih =>
      obtain ⟨link, hl, rfl⟩ := Option.map_eq_some_iff.1 number
      rw [List.length_cons, List.range'_succ]
      have here : pl.libraries[front.length]? = some x := by simp [libraries]
      have loading : Loading link.device.id front.length pl _ _ := loading_loadLibrary hl
      have number' : (exec (loadLibrary dev front.length) pl).2.number? dev = some link.device.id :=
        Eq.trans (number_loadLibrary pl) number
      rcases ran : exec (loadLibrary dev front.length) pl with ⟨r, pl₁⟩
      rw [ran] at loading number'
      have onwards : ∀ y, pl₁.libraries = front ++ y :: rest →
          Brings dev link.device.id (List.range' (front.length + 1) rest.length) (front ++ [y]) rest
            pl₁ := by
        intro y libraries₁
        have later : pl₁.libraries = (front ++ [y]) ++ rest := by simp [libraries₁]
        have := ih (front ++ [y]) later (fun l hl => sized l (List.mem_cons_of_mem x hl)) number'
        rwa [List.length_append, List.length_singleton] at this
      cases loading with
      | skipped same =>
          obtain ⟨same, next⟩ := Prod.mk.inj (shelf_of_entries same)
          apply Brings.cons ran (.inl rfl) next _ (onwards x (same.trans libraries))
          cases x.table.isLoaded link.device.id with
          | true => rfl
          | false => rfl
      | failed e same =>
          rw [Brings, loadLibraries, exec_bind_error ran]
          refine ⟨x :: rest, ?_, loadsTo_self _, fun _ h => by cases h⟩
          rw [shelf_of_entries same, shelf, libraries]
      | loaded library symbols at_ waiting image length now =>
          rw [here] at at_
          cases at_
          obtain ⟨now, -, next⟩ := by simpa only [entries, Prod.mk.injEq] using now
          rw [libraries, List.set_append_right _ _ (Nat.le_refl _), Nat.sub_self] at now
          have done : (x.loadedOn link.device.id symbols).table.isLoaded link.device.id = true :=
            isLoaded_loadedOn (sized x List.mem_cons_self) image
          apply Brings.cons ran (.inr ⟨waiting, done, symbols, rfl⟩) next _ (onwards _ now)
          rw [waiting, done]
          simp [Library.loadedOn]

/-! ## One check -/

/-- The first part of a check: it prepares the device and, if libraries wait, loads them and gives
their constructors. -/
def gather (dev : Nat) : PlatformM (Option (List Nat)) := do
  onDevice dev Device.prepare
  if (← link dev).device.pending then
    let constructors ← loadLibraries dev (List.range (← get).libraries.length)
    return some constructors
  else return none

/-- The second part of a check: it runs the constructors, and then no library waits. -/
def construct (dev : Nat) (run : Nat → PlatformM Unit) : Option (List Nat) → PlatformM Unit
  | none => pure ()
  | some constructors => do
    runConstructors run constructors
    onDevice dev (DeviceM.modifyDevice fun d => { d with pending := false })

theorem exec_checkReady : exec (checkReady dev run) pl = exec (gather dev >>= construct dev run) pl := by
  rw [checkReady, gather, exec_bind, bind_assoc, exec_bind]
  rcases exec (onDevice dev Device.prepare) pl with ⟨e | _, pl₁⟩
  · rfl
  · dsimp only
    rw [bind_assoc, exec_bind, exec_bind]
    rcases exec (link dev) pl₁ with ⟨e | l, pl₂⟩
    · rfl
    · dsimp only
      cases l.device.pending with
      | false => rfl
      | true =>
        rw [if_pos rfl, if_pos rfl, exec_get_bind, bind_assoc, exec_get_bind, bind_assoc]
        rfl

/-- A check loads waiting libraries in order; if it gets to their constructors, they are those of the
libraries that it loaded. -/
theorem exec_gather (sized : ∀ l ∈ pl.libraries, Sized l) (number : pl.number? dev = some n) :
    (exec (gather dev) pl).2.nextLibrary = pl.nextLibrary ∧
      pl.libraries.Forall₂ (LoadsTo n) (exec (gather dev) pl).2.libraries ∧
      ∀ due, (exec (gather dev) pl).1 = .ok due → due.getD [] =
        (loadedSince n pl.libraries (exec (gather dev) pl).2.libraries).flatMap
          Library.constructors := by
  have shelf₁ : (exec (onDevice dev Device.prepare) pl).2.shelf = pl.shelf :=
    shelf_of_entries (entries_onDevice pl)
  have number₁ := Eq.trans (number_prepare pl) number
  rw [gather]
  rcases prepared : exec (onDevice dev Device.prepare) pl with ⟨e | _, pl₁⟩
  · rw [prepared] at shelf₁
    obtain ⟨libraries, next⟩ := Prod.mk.inj shelf₁
    rw [exec_bind_error prepared]
    refine ⟨next, ?_, fun due h => by cases h⟩
    rw [libraries]
    exact loadsTo_self _
  · rw [prepared] at shelf₁ number₁
    obtain ⟨libraries, next⟩ := Prod.mk.inj shelf₁
    rw [exec_bind_ok prepared]
    obtain ⟨link, hl, same⟩ := Option.map_eq_some_iff.1 number₁
    rw [exec_bind_ok (exec_link hl)]
    cases link.device.pending with
    | false =>
        refine ⟨next, ?_, fun due h => ?_⟩
        · show List.Forall₂ (LoadsTo n) pl.libraries pl₁.libraries
          rw [libraries]
          exact loadsTo_self _
        · cases h
          show [] = (loadedSince n pl.libraries pl₁.libraries).flatMap _
          rw [libraries, loadedSince_self]
          rfl
    | true =>
        rw [if_pos rfl, exec_get_bind, List.range_eq_range']
        have brings := brings_loadLibraries pl₁.libraries [] rfl (by rwa [libraries]) number₁
        obtain ⟨libraries', shelf', loads, given⟩ := brings
        rw [List.length_nil] at shelf' given
        rw [exec_bind]
        rcases loaded : exec (loadLibraries dev (List.range' 0 pl₁.libraries.length)) pl₁ with
          ⟨e | constructors, pl₂⟩
        · rw [loaded] at shelf'
          obtain ⟨now, next'⟩ := Prod.mk.inj shelf'
          refine ⟨next'.trans next, ?_, fun due h => by cases h⟩
          rw [← libraries]
          exact now ▸ loads
        · rw [loaded] at shelf' given
          obtain ⟨now, next'⟩ := Prod.mk.inj shelf'
          refine ⟨next'.trans next, ?_, fun due h => ?_⟩
          · rw [← libraries]
            exact now ▸ loads
          · cases h
            rw [← libraries]
            show constructors = (loadedSince n pl₁.libraries pl₂.libraries).flatMap _
            rw [now]
            exact given constructors rfl

/-- The constructors that a check runs to their end. -/
def constructorsRun (pl : Platform) (dev : Nat) (run : Nat → PlatformM Unit) : List Nat :=
  match exec (gather dev) pl with
  | (.ok due, pl') => ranToEnd run (due.getD []) pl'
  | (.error _, _) => []

/-- What a check of the device at a position does, if there is one. -/
def check? (pl : Platform) (dev : Nat) (run : Nat → PlatformM Unit) : Option Check :=
  (pl.number? dev).map fun n =>
    { device := n
      succeeded := (exec (checkReady dev run) pl).1.isOk
      loaded := loadedSince n pl.libraries (exec (checkReady dev run) pl).2.libraries
      ran := pl.constructorsRun dev run }

theorem shelf_construct (constructors : ∀ c, Along (Fixed shelf) (run c)) (due : Option (List Nat)) :
    Along (Fixed shelf) (construct dev run due) := by
  cases due with
  | none => exact Along.pure
  | some due =>
      refine (along_runConstructors (fun _ _ => rfl) constructors due).bind fun _ => ?_
      exact entries_onDevice.mono shelf_of_entries

/-- A check loads libraries before it runs constructors, which leave the libraries alone. -/
theorem shelf_checkReady (constructors : ∀ c, Along (Fixed shelf) (run c)) :
    (exec (checkReady dev run) pl).2.shelf = (exec (gather dev) pl).2.shelf := by
  rw [exec_checkReady, exec_bind]
  rcases exec (gather dev) pl with ⟨e | due, pl₁⟩
  · rfl
  · exact shelf_construct constructors due pl₁

/-- A check runs the constructors of the libraries that it loaded in order, and all of them if it
succeeds. -/
theorem ran_check (constructors : ∀ c, Along (Fixed shelf) (run c)) (sized : ∀ l ∈ pl.libraries, Sized l)
    {c : Check} (h : pl.check? dev run = some c) :
    c.ran <+: c.constructors ∧ (c.succeeded = true → c.ran = c.constructors) := by
  obtain ⟨n, number, rfl⟩ := Option.map_eq_some_iff.1 h
  obtain ⟨-, -, given⟩ := exec_gather sized number
  have libraries : (exec (checkReady dev run) pl).2.libraries = (exec (gather dev) pl).2.libraries :=
    congrArg Prod.fst (shelf_checkReady constructors)
  rw [Check.constructors, libraries, constructorsRun, exec_checkReady]
  rcases gathered : exec (gather dev) pl with ⟨e | due, pl₁⟩
  · rw [exec_bind_error gathered]
    exact ⟨List.nil_prefix, fun h => by cases h⟩
  · rw [gathered] at given
    rw [exec_bind_ok gathered, ← given due rfl]
    refine ⟨ranToEnd_initial _, fun h => ?_⟩
    cases due with
    | none => rfl
    | some due =>
        dsimp only [construct] at h
        rw [exec_bind] at h
        rcases ran : exec (runConstructors run due) pl₁ with ⟨e | _, pl₂⟩
        · rw [ran] at h
          cases h
        · exact ranToEnd_of_returns ran

/-! ## Any number of checks -/

/-- The checks that were made so far, oldest first, while libraries came and went and anything else was
done that leaves the libraries alone. -/
inductive Checked : Platform → List Check → Prop where
  | fresh (pl : Platform) (empty : pl.libraries = []) : Checked pl []
  | register (pl : Platform) (checks : List Check) (before : Checked pl checks) (d : LibraryDescription) :
      Checked (pl.register d).2 checks
  | unregister (pl : Platform) (checks : List Check) (before : Checked pl checks) (id : Nat) :
      Checked (pl.unregister id).2 checks
  | check (pl : Platform) (checks : List Check) (before : Checked pl checks) (dev : Nat)
      (run : Nat → PlatformM Unit) (constructors : ∀ c, Along (Fixed shelf) (run c)) :
      Checked (exec (checkReady dev run) pl).2 (checks ++ (pl.check? dev run).toList)
  | elsewhere (pl pl' : Platform) (checks : List Check) (before : Checked pl checks)
      (same : pl'.shelf = pl.shelf) : Checked pl' checks

/-- Each library that is loaded on a device was loaded by one of the checks, and by one only. -/
structure Ledger (pl : Platform) (checks : List Check) : Prop where
  ids : (pl.libraries.map Library.id).Pairwise (· < ·)
  bound : ∀ l ∈ pl.libraries, l.id < pl.nextLibrary
  sized : ∀ l ∈ pl.libraries, Sized l
  past : ∀ c ∈ checks, ∀ l ∈ c.loaded, l.id < pl.nextLibrary
  apart : ∀ c ∈ checks, (c.loaded.map Library.id).Nodup
  ran : ∀ c ∈ checks, c.ran <+: c.constructors ∧ (c.succeeded = true → c.ran = c.constructors)
  waiting : ∀ l ∈ pl.libraries, ∀ n, l.table.isLoaded n = false → ∀ c ∈ checks, ¬ c.Loads n l.id
  loaded : ∀ l ∈ pl.libraries, ∀ n, l.table.isLoaded n = true →
    ∃ before c after, checks = before ++ c :: after ∧ c.device = n ∧
      (∃ l' ∈ c.loaded, l'.id = l.id ∧ l'.constructors = l.constructors) ∧
      ∀ c' ∈ before ++ after, ¬ c'.Loads n l.id

/-! ## What one check does to the libraries -/

theorem LoadsTo.id (h : LoadsTo n l l') : l'.id = l.id := by
  rcases h with rfl | ⟨-, -, symbols, rfl⟩
  · rfl
  · rfl

theorem LoadsTo.constructors (h : LoadsTo n l l') : l'.constructors = l.constructors := by
  rcases h with rfl | ⟨-, -, symbols, rfl⟩
  · rfl
  · rfl

theorem LoadsTo.sized (h : LoadsTo n l l') (hl : Sized l) : Sized l' := by
  rcases h with rfl | ⟨-, -, symbols, rfl⟩
  · exact hl
  · simpa [Sized, Library.loadedOn, SymbolTable.load] using hl

theorem isLoaded_loadedOn_ne {m : Nat} {symbols : Image} (h : n ≠ m) :
    (l.loadedOn n symbols).table.isLoaded m = l.table.isLoaded m := by
  simp [Library.loadedOn, SymbolTable.load, SymbolTable.isLoaded, SymbolTable.target?,
    List.getElem?_set_ne h]

/-- A library stays loaded. -/
theorem LoadsTo.stays {m : Nat} (h : LoadsTo n l l') (waiting : l'.table.isLoaded m = false) :
    l.table.isLoaded m = false := by
  rcases h with rfl | ⟨was, now, symbols, rfl⟩
  · exact waiting
  · by_cases here : n = m
    · exact here ▸ was
    · rwa [isLoaded_loadedOn_ne here] at waiting

/-- A check loads libraries on its own device only. -/
theorem LoadsTo.device {m : Nat} (h : LoadsTo n l l') (was : l.table.isLoaded m = false)
    (now : l'.table.isLoaded m = true) : n = m := by
  rcases h with rfl | ⟨-, -, symbols, rfl⟩
  · rw [was] at now
    cases now
  · by_contra other
    rw [isLoaded_loadedOn_ne other, was] at now
    cases now

section step

variable {a : Library} (h : libraries.Forall₂ (LoadsTo n) libraries')
include h

theorem map_id_of_loads : libraries'.map Library.id = libraries.map Library.id := by
  induction h with
  | nil => rfl
  | cons loads _ ih => rw [List.map_cons, List.map_cons, ih, loads.id]

/-- Where a library comes from, and that the check loaded it if it was not loaded before. -/
theorem exists_of_loads (hl : a ∈ libraries') :
    ∃ l ∈ libraries, LoadsTo n l a ∧
      (l.table.isLoaded n = false → a.table.isLoaded n = true → a ∈ loadedSince n libraries libraries') := by
  induction h with
  | nil => cases hl
  | cons loads _ ih =>
      rcases List.mem_cons.1 hl with rfl | later
      · refine ⟨_, List.mem_cons_self, loads, fun was now => ?_⟩
        simp [loadedSince_cons, was, now]
      · obtain ⟨l, hl, loads', found⟩ := ih later
        refine ⟨l, List.mem_cons_of_mem _ hl, loads', fun was now => ?_⟩
        rw [loadedSince_cons]
        exact List.mem_append_right _ (found was now)

theorem exists_of_loadedSince (ha : a ∈ loadedSince n libraries libraries') :
    a ∈ libraries' ∧ a.table.isLoaded n = true ∧
      ∃ l ∈ libraries, l.table.isLoaded n = false ∧ l.id = a.id := by
  simp only [loadedSince, List.mem_map, List.mem_filter, Prod.exists, exists_eq_right,
    Bool.and_eq_true, Bool.not_eq_true'] at ha
  obtain ⟨l, hz, was, now⟩ := ha
  obtain ⟨hl, ha⟩ := List.of_mem_zip hz
  exact ⟨ha, now, l, hl, was, ((List.forall₂_iff_zip.1 h).2 hz).id.symm⟩

theorem sublist_loadedSince : (loadedSince n libraries libraries').Sublist libraries' := by
  have all : (libraries.zip libraries').map Prod.snd = libraries' :=
    List.map_snd_zip (Nat.le_of_eq h.length_eq.symm)
  have some : (loadedSince n libraries libraries').Sublist ((libraries.zip libraries').map Prod.snd) :=
    List.filter_sublist.map _
  rwa [all] at some

end step

/-- Of libraries with numbers of their own there is one of each number. -/
theorem eq_of_id (ids : (libraries.map Library.id).Pairwise (· < ·)) (hl : l ∈ libraries)
    (hl' : l' ∈ libraries) (same : l.id = l'.id) : l = l' := by
  apply List.inj_on_of_nodup_map _ hl hl' same
  exact ids.imp fun h => Nat.ne_of_lt h

/-! ## The ledger is kept -/

variable {checks : List Check}

theorem ledger_fresh (empty : pl.libraries = []) : Ledger pl [] := by
  constructor
  all_goals simp [empty]

theorem Ledger.of_shelf (h : Ledger pl checks) (same : pl'.shelf = pl.shelf) : Ledger pl' checks := by
  obtain ⟨libraries, next⟩ := Prod.mk.inj same
  constructor
  · rw [libraries]
    exact h.ids
  · rw [libraries, next]
    exact h.bound
  · rw [libraries]
    exact h.sized
  · rw [next]
    exact h.past
  · exact h.apart
  · exact h.ran
  · rw [libraries]
    exact h.waiting
  · rw [libraries]
    exact h.loaded

/-- A library that was just registered is loaded nowhere. -/
theorem isLoaded_ofDescription (d : LibraryDescription) (numDevices : Nat) :
    (SymbolTable.ofDescription d numDevices).isLoaded n = false := by
  simp only [SymbolTable.isLoaded, SymbolTable.target?, SymbolTable.ofDescription,
    List.getElem?_replicate]
  split
  · rfl
  · rfl

theorem sized_ofDescription (d : LibraryDescription) (id numDevices : Nat) (constructors : List Nat) :
    Sized ⟨id, .ofDescription d numDevices, constructors⟩ := by
  simp [Sized, SymbolTable.ofDescription, fitTo]
  omega

theorem ledger_register (h : Ledger pl checks) (d : LibraryDescription) :
    Ledger (pl.register d).2 checks := by
  have cases : ∀ l ∈ (pl.register d).2.libraries,
      l ∈ pl.libraries ∨ l = ⟨pl.nextLibrary, .ofDescription d pl.listed, d.constructors⟩ := by
    intro l hl
    simpa [register] using hl
  constructor
  · simp only [register, List.map_append, List.map_cons, List.map_nil, List.pairwise_append]
    refine ⟨h.ids, List.pairwise_singleton .., fun i hi j hj => ?_⟩
    obtain ⟨l, hl, rfl⟩ := List.mem_map.1 hi
    rw [List.mem_singleton.1 hj]
    exact h.bound l hl
  · intro l hl
    rcases cases l hl with old | rfl
    · exact Nat.lt_succ_of_lt (h.bound l old)
    · exact Nat.lt_succ_self _
  · intro l hl
    rcases cases l hl with old | rfl
    · exact h.sized l old
    · exact sized_ofDescription ..
  · exact fun c hc l hl => Nat.lt_succ_of_lt (h.past c hc l hl)
  · exact h.apart
  · exact h.ran
  · intro l hl n waits
    rcases cases l hl with old | rfl
    · exact h.waiting l old n waits
    · rintro c hc ⟨-, l, hl, same⟩
      exact absurd (h.past c hc l hl) (by simp [same])
  · intro l hl n loaded
    rcases cases l hl with old | rfl
    · exact h.loaded l old n loaded
    · rw [isLoaded_ofDescription] at loaded
      cases loaded

theorem ledger_unregister (h : Ledger pl checks) (id : Nat) : Ledger (pl.unregister id).2 checks := by
  rw [unregister]
  split
  · constructor
    · exact h.ids.sublist (List.filter_sublist.map _)
    · exact fun l hl => h.bound l (List.mem_filter.1 hl).1
    · exact fun l hl => h.sized l (List.mem_filter.1 hl).1
    · exact h.past
    · exact h.apart
    · exact h.ran
    · exact fun l hl => h.waiting l (List.mem_filter.1 hl).1
    · exact fun l hl => h.loaded l (List.mem_filter.1 hl).1
  · exact h

/-- On a device that does not exist nothing is loaded. -/
theorem exec_checkReady_none (number : pl.number? dev = none) :
    (exec (checkReady dev run) pl).2 = pl := by
  rw [number?, Option.map_eq_none_iff] at number
  rw [checkReady, onDevice, exec_bind, exec_bind_error (exec_link_none number)]

section check

variable {c : Check} (h : Ledger pl checks) (loads : pl.libraries.Forall₂ (LoadsTo n) pl'.libraries)
  (loaded : c.loaded = loadedSince n pl.libraries pl'.libraries)
include h loads loaded

/-- A check did not load what was loaded before. -/
theorem not_loads_of_loaded {m : Nat} (hl : l ∈ pl.libraries) (was : l.table.isLoaded m = true)
    (device : c.device = n) : ¬ c.Loads m l.id := by
  rintro ⟨rfl, a, ha, same⟩
  rw [loaded] at ha
  obtain ⟨-, -, l₀, hl₀, waits, same₀⟩ := exists_of_loadedSince loads ha
  obtain rfl := eq_of_id h.ids hl₀ hl (same₀.trans same)
  rw [device, waits] at was
  cases was

/-- A check did not load what waits afterwards. -/
theorem not_loads_of_waiting {m : Nat} (hl : l ∈ pl'.libraries) (waits : l.table.isLoaded m = false)
    (device : c.device = n) : ¬ c.Loads m l.id := by
  rintro ⟨rfl, a, ha, same⟩
  rw [loaded] at ha
  obtain ⟨ha', now, -⟩ := exists_of_loadedSince loads ha
  have ids : (pl'.libraries.map Library.id).Pairwise (· < ·) := by
    rw [map_id_of_loads loads]
    exact h.ids
  obtain rfl := eq_of_id ids ha' hl same
  rw [device, now] at waits
  cases waits

/-- Entering what a check did keeps the ledger. -/
theorem Ledger.enter (next : pl'.nextLibrary = pl.nextLibrary) (device : c.device = n)
    (ran : c.ran <+: c.constructors ∧ (c.succeeded = true → c.ran = c.constructors)) :
    Ledger pl' (checks ++ [c]) := by
  have ids : (pl'.libraries.map Library.id).Pairwise (· < ·) := by
    rw [map_id_of_loads loads]
    exact h.ids
  have bound : ∀ l ∈ pl'.libraries, l.id < pl'.nextLibrary := by
    intro l' hl'
    obtain ⟨l, hl, becomes, -⟩ := exists_of_loads loads hl'
    rw [next, becomes.id]
    exact h.bound l hl
  constructor
  · exact ids
  · exact bound
  · intro l' hl'
    obtain ⟨l, hl, becomes, -⟩ := exists_of_loads loads hl'
    exact becomes.sized (h.sized l hl)
  · intro c' hc' l hl
    rcases List.mem_append.1 hc' with old | new
    · rw [next]
      exact h.past c' old l hl
    · rw [List.mem_singleton.1 new, loaded] at hl
      exact bound l (exists_of_loadedSince loads hl).1
  · intro c' hc'
    rcases List.mem_append.1 hc' with old | new
    · exact h.apart c' old
    · rw [List.mem_singleton.1 new, loaded]
      exact (ids.imp fun lt => Nat.ne_of_lt lt).sublist ((sublist_loadedSince loads).map _)
  · intro c' hc'
    rcases List.mem_append.1 hc' with old | new
    · exact h.ran c' old
    · rw [List.mem_singleton.1 new]
      exact ran
  · intro l' hl' m waits c' hc'
    rcases List.mem_append.1 hc' with old | new
    · obtain ⟨l, hl, becomes, -⟩ := exists_of_loads loads hl'
      rw [becomes.id]
      exact h.waiting l hl m (becomes.stays waits) c' old
    · rw [List.mem_singleton.1 new]
      exact not_loads_of_waiting h loads loaded hl' waits device
  · intro l' hl' m now
    obtain ⟨l, hl, becomes, found⟩ := exists_of_loads loads hl'
    rw [becomes.id, becomes.constructors]
    cases was : l.table.isLoaded m with
    | true =>
        obtain ⟨before, c', after, rfl, device', own, others⟩ := h.loaded l hl m was
        refine ⟨before, c', after ++ [c], by simp, device', own, fun c'' hc'' => ?_⟩
        rw [← List.append_assoc] at hc''
        rcases List.mem_append.1 hc'' with old | new
        · exact others c'' old
        · rw [List.mem_singleton.1 new]
          exact not_loads_of_loaded h loads loaded hl was device
    | false =>
        obtain rfl := becomes.device was now
        refine ⟨checks, c, [], rfl, device,
          ⟨l', loaded ▸ found was now, becomes.id, becomes.constructors⟩, ?_⟩
        simpa using h.waiting l hl n was

end check

theorem ledger_check (h : Ledger pl checks) (constructors : ∀ c, Along (Fixed shelf) (run c)) :
    Ledger (exec (checkReady dev run) pl).2 (checks ++ (pl.check? dev run).toList) := by
  rcases number : pl.number? dev with _ | n
  · rw [exec_checkReady_none number, check?, number]
    simpa using h
  · have shelves : (exec (checkReady dev run) pl).2.shelf = (exec (gather dev) pl).2.shelf :=
      shelf_checkReady constructors
    obtain ⟨libraries, next⟩ := Prod.mk.inj shelves
    obtain ⟨next', loads, -⟩ := exec_gather h.sized number
    obtain ⟨c, hc, device, loaded⟩ : ∃ c, pl.check? dev run = some c ∧ c.device = n ∧
        c.loaded = loadedSince n pl.libraries (exec (checkReady dev run) pl).2.libraries :=
      ⟨_, by rw [check?, number, Option.map_some], rfl, rfl⟩
    rw [hc, Option.toList_some]
    rw [← libraries] at loads
    exact h.enter loads loaded (next.trans next') device (ran_check constructors h.sized hc)

theorem Checked.ledger (h : Checked pl checks) : Ledger pl checks := by
  induction h with
  | fresh pl empty => exact ledger_fresh empty
  | register pl checks before d ih => exact ledger_register ih d
  | unregister pl checks before id ih => exact ledger_unregister ih id
  | check pl checks before dev run constructors ih => exact ledger_check ih constructors
  | elsewhere pl pl' checks before same ih => exact ih.of_shelf same

/-- The region of a constructor leaves the libraries alone. -/
theorem shelf_runConstructor {hostAddr : Nat} : Along (Fixed shelf) (runConstructor dev hostAddr) := by
  apply along_runConstructor (R := Fixed shelf) shelf_of_entries
  intro device
  have slot : Along (Fixed shelf) (entrySlot hostAddr) := by
    refine Along.bind_get fun pl => ?_
    split
    · exact Lasting.refl pl
    · split
      · exact Lasting.refl pl
      · exact Along.bind_at (R := Fixed shelf) (x := set _) (by rfl) fun _ => Along.pure
  refine slot.bind fun slot => Along.get.bind fun pl => ?_
  dsimp only
  split
  · exact Along.pure
  · exact Along.throw

/-! ## Which constructors complete -/

/-- How often a constructor was completed. -/
def timesCompleted (checks : List Check) (r : ConstructorRun) : Nat :=
  (checks.flatMap Check.completed).count r

/-- A check that failed loaded the constructor's library and did not complete the constructor. -/
def Dropped (checks : List Check) (r : ConstructorRun) : Prop :=
  ∃ c ∈ checks, c.succeeded = false ∧ r ∈ c.due ∧ r ∉ c.completed

theorem timesCompleted_eq_zero {r : ConstructorRun} (h : ∀ c ∈ checks, ¬ c.Loads r.device r.library) :
    timesCompleted checks r = 0 := by
  rw [timesCompleted, List.count_eq_zero]
  intro hr
  obtain ⟨c, hc, completed⟩ := List.mem_flatMap.1 hr
  exact h c hc (Check.loads_of_due (List.mem_of_mem_take completed))

/-- A constructor of a loaded library was completed as often as by the one check that loaded the
library. -/
theorem Ledger.completed (h : Ledger pl checks) (hl : l ∈ pl.libraries)
    (loaded : l.table.isLoaded n = true) {i : Nat} (hi : i < l.constructors.length) :
    ∃ c ∈ checks, ⟨n, l.id, i⟩ ∈ c.due ∧
      timesCompleted checks ⟨n, l.id, i⟩ = c.completed.count ⟨n, l.id, i⟩ ∧
      ∀ c' ∈ checks, ⟨n, l.id, i⟩ ∈ c'.due → c' = c := by
  obtain ⟨before, c, after, rfl, device, ⟨l', hl', id, constructors⟩, others⟩ := h.loaded l hl n loaded
  refine ⟨c, by simp, ?_, ?_, fun c' hc' due => ?_⟩
  · exact Check.mem_due.2 ⟨device, l', hl', id, constructors ▸ hi⟩
  · have first : timesCompleted before ⟨n, l.id, i⟩ = 0 :=
      timesCompleted_eq_zero fun c' hc' => others c' (List.mem_append_left _ hc')
    have last : timesCompleted after ⟨n, l.id, i⟩ = 0 :=
      timesCompleted_eq_zero fun c' hc' => others c' (List.mem_append_right _ hc')
    simp only [timesCompleted] at first last ⊢
    rw [List.flatMap_append, List.flatMap_cons, List.count_append, List.count_append, first, last]
    omega
  · by_contra other
    apply others c' _ (Check.loads_of_due due)
    simpa [other] using hc'

theorem Ledger.timesCompleted (h : Ledger pl checks) (hl : l ∈ pl.libraries)
    (loaded : l.table.isLoaded n = true) {i : Nat} (hi : i < l.constructors.length) :
    (timesCompleted checks ⟨n, l.id, i⟩ = 1 ↔ ¬ Dropped checks ⟨n, l.id, i⟩) ∧
      (timesCompleted checks ⟨n, l.id, i⟩ = 0 ↔ Dropped checks ⟨n, l.id, i⟩) := by
  obtain ⟨c, hc, due, times, only⟩ := h.completed hl loaded hi
  have once : c.completed.Nodup := (Check.nodup_due (h.apart c hc)).sublist (List.take_sublist ..)
  have dropped : Dropped checks ⟨n, l.id, i⟩ ↔ ⟨n, l.id, i⟩ ∉ c.completed := by
    constructor
    · rintro ⟨c', hc', -, due', undone⟩
      rwa [only c' hc' due'] at undone
    · intro undone
      refine ⟨c, hc, ?_, due, undone⟩
      -- A check that succeeds completes all its constructors.
      by_contra succeeded
      have all := (h.ran c hc).2 (by simpa using succeeded)
      apply undone
      rwa [Check.completed, all, ← Check.length_due, List.take_length]
  rw [dropped, times]
  by_cases completed : ⟨n, l.id, i⟩ ∈ c.completed
  · have one := List.count_eq_one_of_mem once completed
    simp [one, completed]
  · have none := List.count_eq_zero.2 completed
    simp [none, completed]

/-- Whenever a check of a device succeeds, each constructor of each library that is loaded on the device
was completed exactly once, unless an earlier check loaded its library and failed before it was
completed. Such a constructor was never completed. -/
theorem checkReady_completes (checked : Checked pl checks) (constructors : ∀ c, Along (Fixed shelf) (run c))
    (ready : Returns (checkReady dev run) pl () pl') (number : pl.number? dev = some n) :
    let all := checks ++ (pl.check? dev run).toList
    (∀ c ∈ all, c.ran <+: c.constructors) ∧
      ∀ l ∈ pl'.libraries, l.table.isLoaded n = true → ∀ i < l.constructors.length,
        (timesCompleted all ⟨n, l.id, i⟩ = 1 ↔ ¬ Dropped checks ⟨n, l.id, i⟩) ∧
          (timesCompleted all ⟨n, l.id, i⟩ = 0 ↔ Dropped checks ⟨n, l.id, i⟩) := by
  intro all
  have ledger : Ledger (exec (checkReady dev run) pl).2 all := ledger_check checked.ledger constructors
  rw [show exec (checkReady dev run) pl = (.ok (), pl') from ready] at ledger
  refine ⟨fun c hc => (ledger.ran c hc).1, fun l hl loaded i hi => ?_⟩
  have earlier : Dropped all ⟨n, l.id, i⟩ ↔ Dropped checks ⟨n, l.id, i⟩ := by
    constructor
    · rintro ⟨c, hc, failed, undone⟩
      rcases List.mem_append.1 hc with old | new
      · exact ⟨c, old, failed, undone⟩
      · rw [check?, number, ready] at new
        rw [List.mem_singleton.1 new] at failed
        cases failed
    · rintro ⟨c, hc, undone⟩
      exact ⟨c, List.mem_append_left _ hc, undone⟩
  rw [← earlier]
  exact ledger.timesCompleted hl loaded hi

/-- A library with two constructors. -/
def twoConstructors : LibraryDescription where
  hostSymbols := [⟨"idle", 0x500, 0⟩]
  images := [some [⟨"idle", 0, 0⟩]]
  constructors := [0x500, 0x600]

/-- Constructors of which the second one fails. -/
def refuseSecond (hostAddr : Nat) : PlatformM Unit :=
  if hostAddr = 0x600 then throw (.entryTableExhausted hostAddr) else pure ()

/-- The first check failed at the second constructor. -/
def halfReady : Platform :=
  (exec (checkReady 0 refuseSecond) (idleDevice.register twoConstructors).2).2

/-- The second check succeeds, and the second constructor was not completed. -/
theorem checkReady_completes_halfReady :
    let checks := ((idleDevice.register twoConstructors).2.check? 0 refuseSecond).toList
    let all := checks ++ (halfReady.check? 0 fun _ => pure ()).toList
    (Checked halfReady checks ∧
      Returns (checkReady 0 fun _ => pure ()) halfReady () (exec (checkReady 0 fun _ => pure ()) halfReady).2 ∧
      halfReady.number? 0 = some 0) ∧
    timesCompleted all ⟨0, 0, 0⟩ = 1 ∧ timesCompleted all ⟨0, 0, 1⟩ = 0 ∧ Dropped checks ⟨0, 0, 1⟩ := by
  intro checks all
  have refused : ∀ c, Along (Fixed shelf) (refuseSecond c) :=
    fun _ => Along.ite Along.throw Along.pure
  have checked : Checked halfReady checks := by
    apply Checked.check _ [] _ 0 refuseSecond refused
    exact Checked.register _ [] (Checked.fresh idleDevice rfl) twoConstructors
  have ready : Returns (checkReady 0 fun _ => pure ()) halfReady ()
      (exec (checkReady 0 fun _ => pure ()) halfReady).2 := returns_of_ok (by cbv)
  have number : halfReady.number? 0 = some 0 := by cbv
  have first : timesCompleted all ⟨0, 0, 0⟩ = 1 := by cbv
  have second : timesCompleted all ⟨0, 0, 1⟩ = 0 := by cbv
  obtain ⟨l, hl, id, loaded, two⟩ : ∃ l ∈ (exec (checkReady 0 fun _ => pure ()) halfReady).2.libraries,
      l.id = 0 ∧ l.table.isLoaded 0 = true ∧ l.constructors.length = 2 :=
    ⟨_, List.mem_cons_self, rfl, by cbv, rfl⟩
  have completes := checkReady_completes checked (fun _ => Along.pure) ready number
  have dropped := (completes.2 l hl loaded 1 (by omega)).2.1
  rw [id] at dropped
  exact ⟨⟨checked, ready, number⟩, first, second, dropped second⟩

end Platform

end Offloading
