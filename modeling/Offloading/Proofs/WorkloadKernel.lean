import Offloading.Proofs.DeviceCode
import Offloading.Proofs.WorkloadEntering
/-!
# The kernel of a workload

Struct by struct the kernel follows the pointer, by the address table where there is one, and adds one to
every element of the array.
-/

namespace Offloading

namespace Workload.Round

variable {r : Round} {k next used : Nat} {m : DeviceMemory}

/-- Whether there is an address table. -/
def tabled (r : Round) : Bool := r.settings.config.addressTable

/-- Where the address table lies, behind all other blocks. -/
def tableAddr (r : Round) : Nat := r.stack.target (2 * r.count)

theorem Fits.direct_eq (fits : r.Fits) : r.direct = !r.tabled := by
  rw [direct, fits.translatesOnDevice, tabled]

/-- What the sections hold on the device when the kernel has been at the first `k` structs. -/
def runningText (r : Round) (k : Nat) : Nat → List UInt8 :=
  r.workload.text r.pointer fun s => if s < k then r.before + 1 else r.before

/-- What they hold when the kernel has run. -/
def finalText (r : Round) : Nat → List UInt8 := r.workload.text r.pointer fun _ => r.before + 1

/-- A table of the structs and arrays. -/
structure Translates (r : Round) (table : AddressTable) : Prop where
  size : table.size = 2 * r.count
  translate : ∀ s < r.count, table.translate (r.buffers.elements s) = some (r.stack.target (2 * s + 1))

theorem Translates.few {table : AddressTable} (translates : r.Translates table) (fits : r.Fits) :
    table.size < Word.modulus := by
  have structs := fits.suitable.structs
  have word : Word.greatest < Word.modulus := by decide
  have count : r.count = r.workload.structs := rfl
  rw [show structBytes = 16 from rfl] at structs
  rw [translates.size]
  omega

/-- The memory while the kernel runs, with the table where there is one. -/
structure Running (r : Round) (table : AddressTable) (next used k : Nat) (m : DeviceMemory) : Prop where
  stored : r.stack.Stored (2 * r.count) (r.runningText k) next used m
  table : r.tabled = true → ⟨r.tableAddr, table.encode⟩ ∈ m.blocks

theorem pointer_lt (fits : r.Fits) (hk : k < r.count) : r.pointer k < Word.modulus := by
  rw [pointer]
  split
  · exact fits.target_lt_modulus (by omega)
  · exact fits.elements_lt hk

/-- Where there is a table, the pointer of a struct is the host address of its array, which the table
translates. -/
theorem run_translate (fits : r.Fits) (tabled : r.tabled = true) {table : AddressTable}
    (translates : r.Translates table) (running : r.Running table next used k m) {s : Nat} (hs : s < r.count) :
    (KernelM.translate r.tableAddr (r.pointer s)).run.run m = ⟨.ok (r.stack.target (2 * s + 1)), m, []⟩ := by
  have indirect : r.direct = false := by rw [fits.direct_eq, tabled]; rfl
  have host : r.pointer s = r.buffers.elements s := by rw [pointer, indirect, if_neg Bool.false_ne_true]
  rw [host, KernelM.run_translate _ running.stored.wellFormed (translates.few fits) (running.table tabled),
    translates.translate s hs]

/-- Where there is none, it is the device address of its array. -/
theorem pointer_eq (fits : r.Fits) (untabled : r.tabled = false) {s : Nat} :
    r.pointer s = r.stack.target (2 * s + 1) := by
  rw [pointer, fits.direct_eq, untabled]
  rfl

theorem runningText_array : r.runningText k (2 * k + 1) = r.workload.contentAfter r.before k := by
  rw [runningText, text_array, if_neg (Nat.lt_irrefl k)]

theorem runningText_succ : r.runningText (k + 1) (2 * k + 1) =
    incremented (r.workload.contentAfter r.before k) := by
  rw [runningText, text_array, if_pos (Nat.lt_succ_self k), incremented_contentAfter]

theorem runningText_other {j : Nat} (ne : j ≠ 2 * k + 1) : r.runningText (k + 1) j = r.runningText k j := by
  obtain ⟨s, -, rfl | rfl⟩ := lt_pairs (show j < 2 * (j / 2 + 1) by omega)
  · rw [runningText, runningText, text_struct, text_struct]
  · rw [runningText, runningText, text_array, text_array]
    congr 1
    exact if_congr (by omega) rfl rfl

/-- At each struct the kernel adds one to the elements of its array, and does nothing else. -/
theorem run_incrementStruct (fits : r.Fits) {table : AddressTable} (translates : r.Translates table)
    (context : KernelContext) (passed : context.arguments[k]? = some (r.stack.target (2 * k)))
    (hk : k < r.count) (running : r.Running table next used k m) :
    ∃ m', (r.workload.incrementStruct context (if r.tabled then some r.tableAddr else none) k).run.run m =
        ⟨.ok (), m', []⟩ ∧ r.Running table next used (k + 1) m' := by
  have struct := running.stored.read (show 2 * k < 2 * r.count by omega) (show 0 < Word.bytes by decide)
    (by rw [size_struct]; decide)
  have word : (r.runningText k (2 * k)).take Word.bytes = Word.toBytes (r.pointer k) := by
    rw [runningText, text_struct, structText]
    exact List.take_left' (Word.length_toBytes _)
  have array := running.stored.read_all fits.separate (show 2 * k + 1 < 2 * r.count by omega)
  rw [word] at struct
  rw [size_array, runningText_array] at array
  have length : (incremented (r.workload.contentAfter r.before k)).length = r.workload.arrayBytes := by
    rw [incremented_contentAfter, length_contentAfter]
  obtain ⟨m', written, stored, others⟩ : ∃ m', m.write (r.stack.target (2 * k + 1))
      (incremented (r.workload.contentAfter r.before k)) = .ok m' ∧
      r.stack.Stored (2 * r.count) (r.runningText (k + 1)) next used m' ∧ _ := by
    refine running.stored.write (by omega) (List.ne_nil_of_length_pos (length ▸ arrayBytes_pos))
      (by rw [length, size_array]) ?_ fun i _ ne => runningText_other ne
    rw [runningText_succ, runningText_array, length,
      List.drop_eq_nil_of_le (Nat.le_of_eq (length_contentAfter _ _)), List.append_nil]
  refine ⟨m', ?_, stored, fun tabled => others _ (running.table tabled) ?_⟩
  · rw [incrementStruct, KernelM.argument_eq passed, KernelM.run_bind (KernelM.run_pure _),
      KernelM.run_bind (KernelM.run_readWord struct), Word.ofBytes_toBytes (pointer_lt fits hk)]
    cases tabled : r.tabled with
    | true =>
        exact (KernelM.run_bind (run_translate fits tabled translates running hk)).trans
          ((KernelM.run_bind (KernelM.run_readBytes_ok array)).trans (KernelM.run_writeBytes written))
    | false =>
        rw [pointer_eq fits tabled]
        exact (KernelM.run_bind (KernelM.run_pure _)).trans
          ((KernelM.run_bind (KernelM.run_readBytes_ok array)).trans (KernelM.run_writeBytes written))
  · exact (SectionStack.target_ne (by omega)).symm

/-- The kernel's arguments are the structs, followed by the table where there is one. -/
structure Passed (r : Round) (arguments : List Nat) : Prop where
  struct : ∀ s < r.count, arguments[s]? = some (r.stack.target (2 * s))
  table : r.tabled = true → arguments[r.count]? = some r.tableAddr

/-- The kernel adds one to the elements of all arrays. -/
theorem run_kernel (fits : r.Fits) {table : AddressTable} (translates : r.Translates table)
    {context : KernelContext} (passed : r.Passed context.arguments)
    (running : r.Running table next used 0 m) :
    ∃ m', ((r.workload.kernel r.tabled).body context).run.run m = ⟨.ok (), m', []⟩ ∧
      r.Running table next used r.count m' := by
  let table? : Option Nat := if r.tabled then some r.tableAddr else none
  have loop : ∃ m', ((List.range' 0 r.count).forM (r.workload.incrementStruct context table?)).run.run m =
      ⟨.ok (), m', []⟩ ∧ r.Running table next used (0 + r.count) m' :=
    KernelM.run_forM_range running fun k _ hk m running =>
      run_incrementStruct fits translates context (passed.struct k (by omega)) (by omega) running
  rw [Nat.zero_add, ← List.range_eq_range'] at loop
  obtain ⟨m', ran, running'⟩ := loop
  refine ⟨m', ?_, running'⟩
  dsimp only [table?] at ran
  cases tabled : r.tabled with
  | true =>
      have found : (some <$> KernelM.argument context r.count).run.run m =
          ⟨.ok (some r.tableAddr), m, []⟩ := by
        rw [KernelM.argument_eq (passed.table tabled)]
        rfl
      rw [tabled, if_pos rfl] at ran
      exact (KernelM.run_bind found).trans ran
  | false =>
      rw [tabled, if_neg Bool.false_ne_true] at ran
      exact (KernelM.run_bind (KernelM.run_pure none)).trans ran

end Workload.Round

end Offloading
