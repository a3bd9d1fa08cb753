import Offloading.Proofs.Leave
import Offloading.Proofs.Phases
/-!
# Turns

Leaving a region and refreshing one take up its regions one after the other. A *turn* is a region
together with the states before and after it was taken up. What all turns of a phase keep, the phase
keeps, and what the turns before a given one keep holds when its turn comes.
-/

namespace Offloading

/-- What is done to a region that is taken up. -/
inductive TurnKind where
  /-- It is released; the sections of structs whose members follow are padded. -/
  | release (padded : Bool)
  /-- It is refreshed. -/
  | refresh
  deriving DecidableEq, Repr

/-- A region that is taken up. -/
structure Turn where
  /-- What is done to it. -/
  kind : TurnKind
  /-- The region. -/
  region : Argument
  /-- The state before. -/
  before : RegionState
  /-- The state after, whether it succeeded or not. -/
  after : RegionState

namespace Region

open RegionM

/-- The turns of the regions with the given plans. A step that fails is the last one. -/
def turnsOf {α : Type} (kind : TurnKind) (step : Argument → RegionM α) :
    List RegionPlan → RegionState → List Turn
  | [], _ => []
  | plan :: rest, s =>
    match plan.resolve s.host with
    | none => turnsOf kind step rest s
    | some region =>
      ⟨kind, region, s, (exec (step region) s).2⟩ ::
        match exec (step region) s with
        | (.ok _, s') => turnsOf kind step rest s'
        | (.error _, _) => []

/-- The turns of the regions of an argument. -/
def turnsAt {α : Type} (kind : Bool → TurnKind) (step : Bool → Argument → RegionM α) (index : Nat)
    (s : RegionState) : List Turn :=
  match s.arguments.get index, s.arguments.plans index with
  | .ok a, .ok plans =>
    if a.isMapped then
      turnsOf (kind (isPadded s.arguments index a)) (step (isPadded s.arguments index a)) plans s
    else []
  | _, _ => []

/-- The turns of the arguments at the given positions, which are taken up by `argument`. -/
def turnsOn {α : Type} (turns : Nat → RegionState → List Turn) (argument : Nat → RegionM α) :
    List Nat → RegionState → List Turn
  | [], _ => []
  | index :: rest, s =>
    turns index s ++
      match exec (argument index) s with
      | (.ok _, s') => turnsOn turns argument rest s'
      | (.error _, _) => []

/-- The turns of leaving a region. -/
def releases (settings : Settings) (s : RegionState) : List Turn :=
  turnsOn (turnsAt .release (unmapRegion settings)) (unmapArgument settings)
    (List.range s.arguments.size).reverse s

/-- The turns of refreshing a region. -/
def refreshes (s : RegionState) : List Turn :=
  turnsOn (turnsAt (fun _ => .refresh) fun _ => refreshRegion) refreshArgument
    (List.range s.arguments.size) s

/-- The relation holds between the states before and after the turn. -/
def Turned (R : RegionState → RegionState → Prop) (t : Turn) : Prop := R t.before t.after

/-- The turn is one of a phase under the given settings: its states are those before and after its
step. -/
def Ran (settings : Settings) (t : Turn) : Prop :=
  match t.kind with
  | .release padded => t.after = (exec (unmapRegion settings padded t.region) t.before).2
  | .refresh => t.after = (exec (refreshRegion t.region) t.before).2

variable {α β : Type} {R : RegionState → RegionState → Prop} [Lasting R] {settings : Settings}
  {s : RegionState} {kind : TurnKind} {step : Argument → RegionM α} {plans : List RegionPlan}
  {index : Nat} {indices : List Nat} {earlier later : List Turn} {turn : Turn}

/-! ## When a turn comes -/

theorem before_turnsOf (h : turnsOf kind step plans s = earlier ++ turn :: later)
    (kept : ∀ t ∈ earlier, Turned R t) : R s turn.before := by
  induction plans generalizing s earlier with
  | nil => exact absurd h (by simp [turnsOf])
  | cons plan rest ih =>
      rw [turnsOf] at h
      cases hp : plan.resolve s.host with
      | none =>
          rw [hp] at h
          exact ih h kept
      | some region =>
          rw [hp] at h
          cases earlier with
          | nil =>
              cases h
              exact Lasting.refl s
          | cons first earlier =>
              obtain ⟨rfl, others⟩ := List.cons.inj h
              have here : R s (exec (step region) s).2 := kept _ (List.mem_cons_self ..)
              rcases hr : exec (step region) s with ⟨e | a, s'⟩
              · rw [hr] at others
                exact absurd others (by simp)
              · rw [hr] at others here
                exact Lasting.trans here (ih others fun t ht => kept t (List.mem_cons_of_mem _ ht))

/-- When the turn of a region comes, the state was moved by the turns before. -/
theorem before_turnsOn (turns : Nat → RegionState → List Turn) (argument : Nat → RegionM α)
    (inside : ∀ {index s earlier turn later}, turns index s = earlier ++ turn :: later →
      (∀ t ∈ earlier, Turned R t) → R s turn.before)
    (whole : ∀ {index s}, (∀ t ∈ turns index s, Turned R t) → R s (exec (argument index) s).2)
    (h : turnsOn turns argument indices s = earlier ++ turn :: later)
    (kept : ∀ t ∈ earlier, Turned R t) : R s turn.before := by
  induction indices generalizing s earlier with
  | nil => exact absurd h (by simp [turnsOn])
  | cons index rest ih =>
      rw [turnsOn] at h
      rcases append_cases h with ⟨_, here, -⟩ | ⟨between, rfl, others⟩
      · exact inside here kept
      · have first := whole fun t ht => kept t (List.mem_append_left _ ht)
        rcases hr : exec (argument index) s with ⟨e | a, s'⟩
        · rw [hr] at others
          simp at others
        · rw [hr] at others first
          exact Lasting.trans first (ih others fun t ht => kept t (List.mem_append_right _ ht))

theorem before_turnsAt {kind : Bool → TurnKind} {step : Bool → Argument → RegionM α}
    (h : turnsAt kind step index s = earlier ++ turn :: later)
    (kept : ∀ t ∈ earlier, Turned R t) : R s turn.before := by
  have none : [] ≠ earlier ++ turn :: later := by simp
  rw [turnsAt] at h
  split at h
  · split at h
    · exact before_turnsOf h kept
    · exact absurd h none
  · exact absurd h none

omit [Lasting R] in
theorem of_mem_turnsOf {P : Turn → Prop}
    (made : ∀ region s, P ⟨kind, region, s, (exec (step region) s).2⟩)
    (h : turn ∈ turnsOf kind step plans s) : P turn := by
  induction plans generalizing s with
  | nil => cases h
  | cons plan rest ih =>
      rw [turnsOf] at h
      split at h
      · exact ih h
      · rcases List.mem_cons.1 h with rfl | h
        · exact made _ _
        · split at h
          · exact ih h
          · cases h

omit [Lasting R] in
theorem of_mem_turnsAt {P : Turn → Prop} {kind : Bool → TurnKind}
    {step : Bool → Argument → RegionM α}
    (made : ∀ padded region s, P ⟨kind padded, region, s, (exec (step padded region) s).2⟩)
    (h : turn ∈ turnsAt kind step index s) : P turn := by
  rw [turnsAt] at h
  split at h
  · split at h
    · exact of_mem_turnsOf (made _) h
    · cases h
  · cases h

omit [Lasting R] in
theorem of_mem_turnsOn {P : Turn → Prop} {turns : Nat → RegionState → List Turn}
    {argument : Nat → RegionM α} (inside : ∀ index s t, t ∈ turns index s → P t)
    (h : turn ∈ turnsOn turns argument indices s) : P turn := by
  induction indices generalizing s with
  | nil => cases h
  | cons index rest ih =>
      rw [turnsOn] at h
      rcases List.mem_append.1 h with h | h
      · exact inside _ _ _ h
      · split at h
        · exact ih h
        · cases h

omit [Lasting R] in
theorem ran_of_mem_releases (h : turn ∈ releases settings s) : Ran settings turn := by
  refine of_mem_turnsOn (fun index s t ht => ?_) h
  refine of_mem_turnsAt (fun padded region s => ?_) ht
  exact (rfl : _ = (exec (unmapRegion settings padded region) s).2)

omit [Lasting R] in
theorem ran_of_mem_refreshes (h : turn ∈ refreshes s) : Ran settings turn := by
  refine of_mem_turnsOn (fun index s t ht => ?_) h
  refine of_mem_turnsAt (fun padded region s => ?_) ht
  exact (rfl : _ = (exec (refreshRegion region) s).2)

/-! ## What a phase keeps -/

/-- A step that follows another one may assume that the other one succeeded. -/
private theorem along_then {x : RegionM α} {f : α → RegionM β}
    {turns : RegionState → List Turn} (first : R s (exec x s).2)
    (others : ∀ s', (∀ t ∈ turns s', Turned R t) → ∀ a, R s' (exec (f a) s').2)
    (kept : ∀ t ∈ (match exec x s with
      | (.ok _, s') => turns s'
      | (.error _, _) => []), Turned R t) : R s (exec (x >>= f) s).2 := by
  refine Along.bind_returns first fun a s' h => others s' ?_ a
  rw [Returns] at h
  rw [h] at kept
  exact kept

theorem along_forRegions_of_turns {step : Argument → RegionM Unit}
    (kept : ∀ t ∈ turnsOf kind step plans s, Turned R t) :
    R s (exec (forRegions step plans) s).2 := by
  induction plans generalizing s with
  | nil => exact Lasting.refl s
  | cons plan rest ih =>
      rw [turnsOf] at kept
      rw [forRegions, exec_get_bind]
      cases hp : plan.resolve s.host with
      | none =>
          rw [hp] at kept
          exact ih kept
      | some region =>
          rw [hp] at kept
          obtain ⟨here, others⟩ := List.forall_mem_cons.1 kept
          exact along_then here (fun s' h _ => ih h) others

theorem along_refreshPlans_of_turns
    (kept : ∀ t ∈ turnsOf kind refreshRegion plans s, Turned R t) :
    R s (exec (refreshPlans plans) s).2 := by
  induction plans generalizing s with
  | nil => exact Lasting.refl s
  | cons plan rest ih =>
      rw [turnsOf] at kept
      rw [refreshPlans, exec_get_bind]
      cases hp : plan.resolve s.host with
      | none =>
          rw [hp] at kept
          exact Along.bind_at (x := refreshPlans rest) (ih kept) fun _ => Along.pure
      | some region =>
          rw [hp] at kept
          obtain ⟨here, others⟩ := List.forall_mem_cons.1 kept
          refine along_then here (fun s' h _ => ?_) others
          exact Along.bind_at (ih h) fun _ => Along.pure

theorem along_unmapArgument_of_turns
    (kept : ∀ t ∈ turnsAt .release (unmapRegion settings) index s, Turned R t) :
    R s (exec (unmapArgument settings index) s).2 := by
  rw [turnsAt] at kept
  rw [unmapArgument]
  refine Along.bind_returns (Allows.arguments s) fun a s₁ h₁ => ?_
  obtain ⟨got, rfl⟩ := returns_arguments.1 h₁
  cases hm : a.isMapped with
  | false => exact Lasting.refl s₁
  | true =>
      rw [Bool.not_true, if_neg Bool.false_ne_true, exec_get_bind]
      refine Along.bind_returns (Allows.arguments s₁) fun plans s₂ h₂ => ?_
      obtain ⟨found, rfl⟩ := returns_arguments.1 h₂
      simp only [got, found, hm, if_true] at kept
      exact along_forRegions_of_turns kept

theorem along_refreshArgument_of_turns
    (kept : ∀ t ∈ turnsAt (fun _ => .refresh) (fun _ => refreshRegion) index s, Turned R t) :
    R s (exec (refreshArgument index) s).2 := by
  rw [turnsAt] at kept
  rw [refreshArgument]
  refine Along.bind_returns (Allows.arguments s) fun a s₁ h₁ => ?_
  obtain ⟨got, rfl⟩ := returns_arguments.1 h₁
  cases hm : a.isMapped with
  | false => exact Lasting.refl s₁
  | true =>
      rw [Bool.not_true, if_neg Bool.false_ne_true]
      refine Along.bind_returns (Allows.arguments s₁) fun plans s₂ h₂ => ?_
      obtain ⟨found, rfl⟩ := returns_arguments.1 h₂
      simp only [got, found, hm, if_true] at kept
      exact along_refreshPlans_of_turns kept

/-- What all turns keep, leaving keeps. -/
theorem along_leave_of_turns (kept : ∀ t ∈ releases settings s, Turned R t) :
    R s (exec (leave settings) s).2 := by
  have all : ∀ (indices : List Nat) (s : RegionState),
      (∀ t ∈ turnsOn (turnsAt .release (unmapRegion settings)) (unmapArgument settings) indices s,
        Turned R t) → R s (exec (indices.forM (unmapArgument settings)) s).2 := by
    intro indices
    induction indices with
    | nil => exact fun s _ => Lasting.refl s
    | cons index rest ih =>
        intro s kept
        rw [turnsOn] at kept
        obtain ⟨here, others⟩ := List.forall_mem_append.1 kept
        exact along_then (along_unmapArgument_of_turns here) (fun s' h _ => ih s' h) others
  exact all _ s kept

/-- What all turns keep, refreshing keeps. -/
theorem along_refresh_of_turns (kept : ∀ t ∈ refreshes s, Turned R t) :
    R s (exec refresh s).2 := by
  have all : ∀ (indices : List Nat) (s : RegionState),
      (∀ t ∈ turnsOn (turnsAt (fun _ => .refresh) fun _ => refreshRegion) refreshArgument indices s,
        Turned R t) → R s (exec (refreshAll indices) s).2 := by
    intro indices
    induction indices with
    | nil => exact fun s _ => Lasting.refl s
    | cons index rest ih =>
        intro s kept
        rw [turnsOn] at kept
        obtain ⟨here, others⟩ := List.forall_mem_append.1 kept
        refine along_then (along_refreshArgument_of_turns here) (fun s' h _ => ?_) others
        exact Along.bind_at (ih s' h) fun _ => Along.pure
  exact all _ s kept

theorem before_releases (h : releases settings s = earlier ++ turn :: later)
    (kept : ∀ t ∈ earlier, Turned R t) : R s turn.before :=
  before_turnsOn (turnsAt .release (unmapRegion settings)) (unmapArgument settings) before_turnsAt
    along_unmapArgument_of_turns h kept

theorem before_refreshes (h : refreshes s = earlier ++ turn :: later)
    (kept : ∀ t ∈ earlier, Turned R t) : R s turn.before :=
  before_turnsOn (turnsAt (fun _ => .refresh) fun _ => refreshRegion) refreshArgument before_turnsAt
    along_refreshArgument_of_turns h kept

/-! ## Refreshing that succeeds -/

omit [Lasting R] in
private theorem returned_of_refreshPlans {n : Nat} {s' : RegionState}
    (h : Returns (refreshPlans plans) s n s') (ht : turn ∈ turnsOf kind refreshRegion plans s) :
    ∃ b, Returns (refreshRegion turn.region) turn.before b turn.after := by
  induction plans generalizing s s' n with
  | nil => cases ht
  | cons plan rest ih =>
      rw [turnsOf] at ht
      rw [refreshPlans, returns_get_bind] at h
      cases hp : plan.resolve s.host with
      | none =>
          rw [hp] at ht h
          obtain ⟨_, s₁, more, -⟩ := returns_bind.1 (returns_pure_bind.1 h)
          exact ih more ht
      | some region =>
          rw [hp] at ht h
          obtain ⟨b, s₁, first, h⟩ := returns_bind.1 h
          obtain ⟨_, s₂, more, -⟩ := returns_bind.1 h
          have ran : exec (refreshRegion region) s = (.ok b, s₁) := first
          dsimp only at ht
          rw [ran] at ht
          rcases List.mem_cons.1 ht with rfl | ht
          · exact ⟨b, first⟩
          · exact ih more ht

omit [Lasting R] in
private theorem returned_of_refreshArgument {n : Nat} {s' : RegionState}
    (h : Returns (refreshArgument index) s n s')
    (ht : turn ∈ turnsAt (fun _ => .refresh) (fun _ => refreshRegion) index s) :
    ∃ b, Returns (refreshRegion turn.region) turn.before b turn.after := by
  obtain ⟨a, s₁, hg, rest⟩ := returns_bind.1 h
  obtain ⟨got, rfl⟩ := returns_arguments.1 hg
  rw [turnsAt, got] at ht
  cases hm : a.isMapped with
  | false =>
      split at ht
      · rename_i found _
        cases found
        rw [hm, if_neg Bool.false_ne_true] at ht
        cases ht
      · cases ht
  | true =>
      rw [hm, Bool.not_true, if_neg Bool.false_ne_true] at rest
      obtain ⟨plans, s₂, hp, refreshed⟩ := returns_bind.1 rest
      obtain ⟨found, rfl⟩ := returns_arguments.1 hp
      rw [found] at ht
      dsimp only at ht
      rw [hm, if_pos rfl] at ht
      exact returned_of_refreshPlans refreshed ht

omit [Lasting R] in
/-- If refreshing succeeds, all its turns do. -/
theorem returned_of_refresh {n : Nat} {s' : RegionState} (h : Returns refresh s n s')
    (ht : turn ∈ refreshes s) :
    ∃ b, Returns (refreshRegion turn.region) turn.before b turn.after := by
  have all : ∀ (indices : List Nat) {s s' : RegionState} {n : Nat},
      Returns (refreshAll indices) s n s' →
      turn ∈ turnsOn (turnsAt (fun _ => .refresh) fun _ => refreshRegion) refreshArgument indices s →
      ∃ b, Returns (refreshRegion turn.region) turn.before b turn.after := by
    intro indices
    induction indices with
    | nil =>
        intro s s' n _ ht
        cases ht
    | cons index rest ih =>
        intro s s' n h ht
        obtain ⟨moved, s₁, first, h⟩ := returns_bind.1 h
        obtain ⟨others, s₂, more, -⟩ := returns_bind.1 h
        rw [turnsOn] at ht
        rcases List.mem_append.1 ht with ht | ht
        · exact returned_of_refreshArgument first ht
        · have ran : exec (refreshArgument index) s = (.ok moved, s₁) := first
          rw [ran] at ht
          exact ih more ht
  exact all _ h ht

end Region

end Offloading
