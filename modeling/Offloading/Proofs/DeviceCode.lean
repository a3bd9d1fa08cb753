import Offloading.Kernel.Code
/-!
# Running device code

Code that succeeds in silence can be run step by step: it hands its value and the memory on to the rest.
-/

namespace Offloading

namespace DeviceCode

variable {α β : Type}

/-- Code that goes on runs the rest on the memory that the first part left. -/
theorem run_andThen (code : DeviceCode α) (f : α → DeviceCode β) (m : DeviceMemory) :
    (code.andThen f).run m =
      { value := ((f (code.run m).value).run (code.run m).memory).value
        memory := ((f (code.run m).value).run (code.run m).memory).memory
        reports := (code.run m).reports ++ ((f (code.run m).value).run (code.run m).memory).reports } := by
  induction code generalizing m with
  | done value => rfl
  | read addr size next ih => exact ih (m.read addr size) m
  | write addr content next ih =>
      rw [andThen, run, run]
      cases m.write addr content with
      | ok m' => exact ih (.ok ()) m'
      | error e => exact ih (.error e) m
  | report line next ih =>
      rw [andThen, run, ih]
      rfl

end DeviceCode

namespace KernelM

variable {α β : Type} {m m' : DeviceMemory}

/-- Code that ends silently with a value hands it on, with the memory. -/
theorem run_bind {x : KernelM α} {f : α → KernelM β} {a : α} (h : x.run.run m = ⟨.ok a, m', []⟩) :
    (x >>= f).run.run m = (f a).run.run m' := by
  change (DeviceCode.andThen x.run _).run m = _
  rw [DeviceCode.run_andThen, h]
  rfl

theorem run_pure (a : α) : (Pure.pure a : KernelM α).run.run m = ⟨.ok a, m, []⟩ := rfl

theorem run_readBytes_ok {addr size : Nat} {content : List UInt8} (h : m.read addr size = .ok content) :
    (readBytes addr size).run.run m = ⟨.ok content, m, []⟩ := by
  change (DeviceCode.done ((m.read addr size).mapError KernelError.access)).run m = _
  rw [h]
  rfl

theorem run_readWord {addr : Nat} {content : List UInt8} (h : m.read addr Word.bytes = .ok content) :
    (readWord addr).run.run m = ⟨.ok (Word.ofBytes content), m, []⟩ := by
  rw [readWord, run_bind (run_readBytes_ok h)]
  rfl

theorem run_writeBytes {addr : Nat} {content : List UInt8} (h : m.write addr content = .ok m') :
    (writeBytes addr content).run.run m = ⟨.ok (), m', []⟩ := by
  change DeviceCode.run (.write addr content _) m = _
  rw [DeviceCode.run, h]
  rfl

theorem argument_eq {context : KernelContext} {index value : Nat}
    (h : context.arguments[index]? = some value) : argument context index = Pure.pure value := by
  rw [argument, h]

/-- A loop in which each step takes the invariant from its position to the next one. -/
theorem run_forM_range {g : Nat → KernelM PUnit} {I : Nat → DeviceMemory → Prop} {first count : Nat}
    (start : I first m)
    (step : ∀ k, first ≤ k → k < first + count → ∀ m, I k m →
      ∃ m', (g k).run.run m = ⟨.ok (), m', []⟩ ∧ I (k + 1) m') :
    ∃ m', ((List.range' first count).forM g).run.run m = ⟨.ok (), m', []⟩ ∧ I (first + count) m' := by
  induction count generalizing first m with
  | zero => exact ⟨m, rfl, start⟩
  | succ count ih =>
      obtain ⟨m', ran, holds⟩ := step first (Nat.le_refl _) (by omega) m start
      obtain ⟨m'', ran', holds'⟩ := ih holds fun k lower upper => step k (by omega) (by omega)
      refine ⟨m'', ?_, ?_⟩
      · rw [List.range'_succ]
        exact (run_bind ran).trans ran'
      · rw [show first + (count + 1) = first + 1 + count by omega]
        exact holds'

end KernelM

end Offloading
