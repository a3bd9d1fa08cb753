/-!
# Transfer statistics

What a device has moved, allocated and launched.
-/

namespace Offloading

/-- Cumulative counts of a device. -/
structure TransferStats where
  /-- Single copies to the device. -/
  submissions : Nat := 0
  /-- Bytes copied to the device, in batches or not. -/
  submittedBytes : Nat := 0
  /-- Copies from the device. -/
  retrievals : Nat := 0
  /-- Bytes copied from the device. -/
  retrievedBytes : Nat := 0
  /-- Batches of copies to the device. -/
  batches : Nat := 0
  /-- Chunks in those batches. -/
  batchedChunks : Nat := 0
  /-- Blocks allocated. -/
  allocations : Nat := 0
  /-- Blocks released. -/
  deallocations : Nat := 0
  /-- Kernels run. -/
  launches : Nat := 0
  deriving DecidableEq, Repr, Inhabited

namespace TransferStats

/-- Counts a copy to the device. -/
def recordSubmission (s : TransferStats) (bytes : Nat) : TransferStats :=
  { s with submissions := s.submissions + 1, submittedBytes := s.submittedBytes + bytes }

/-- Counts a copy from the device. -/
def recordRetrieval (s : TransferStats) (bytes : Nat) : TransferStats :=
  { s with retrievals := s.retrievals + 1, retrievedBytes := s.retrievedBytes + bytes }

/-- Counts a batch. -/
def recordBatch (s : TransferStats) (chunks bytes : Nat) : TransferStats :=
  { s with
    batches := s.batches + 1
    batchedChunks := s.batchedChunks + chunks
    submittedBytes := s.submittedBytes + bytes }

/-- Counts an allocated block. -/
def recordAllocation (s : TransferStats) : TransferStats :=
  { s with allocations := s.allocations + 1 }

/-- Counts a released block. -/
def recordDeallocation (s : TransferStats) : TransferStats :=
  { s with deallocations := s.deallocations + 1 }

/-- Counts a kernel that ran. -/
def recordLaunch (s : TransferStats) : TransferStats := { s with launches := s.launches + 1 }

/-- One line for people. -/
def summary (s : TransferStats) : String :=
  "Transfers: " ++ toString s.submissions ++ " H2D (" ++ toString s.submittedBytes ++ " bytes), "
    ++ toString s.retrievals ++ " D2H (" ++ toString s.retrievedBytes ++ " bytes), "
    ++ toString s.batches ++ " batches (" ++ toString s.batchedChunks ++ " chunks), "
    ++ toString s.allocations ++ " allocs, " ++ toString s.deallocations ++ " frees, "
    ++ toString s.launches ++ " launches"

end TransferStats

end Offloading
