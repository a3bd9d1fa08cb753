import Offloading.Text.Ratio
/-!
# Mapping statistics

What a mapping table has done since it was created.
-/

namespace Offloading

/-- Cumulative counts of a mapping table. -/
structure MappingStats where
  /-- Mappings created. -/
  newMappings : Nat := 0
  /-- Requests that an existing mapping served. -/
  reuses : Nat := 0
  /-- Requests refused because of a partial overlap. -/
  overlapRejections : Nat := 0
  /-- Mappings removed. -/
  releases : Nat := 0
  /-- The most host bytes mapped at one time. -/
  peakLiveBytes : Nat := 0
  /-- Host bytes of all mappings ever created. -/
  cumulativeBytes : Nat := 0
  deriving DecidableEq, Repr, Inhabited

namespace MappingStats

/-- Counts a new mapping of `length` bytes, after which `live` bytes are mapped. -/
def recordNew (s : MappingStats) (length live : Nat) : MappingStats :=
  { s with
    newMappings := s.newMappings + 1
    cumulativeBytes := s.cumulativeBytes + length
    peakLiveBytes := max s.peakLiveBytes live }

/-- Counts a request served by an existing mapping. -/
def recordReuse (s : MappingStats) : MappingStats := { s with reuses := s.reuses + 1 }

/-- Counts a refused partial overlap. -/
def recordOverlap (s : MappingStats) : MappingStats :=
  { s with overlapRejections := s.overlapRejections + 1 }

/-- Counts a removed mapping. -/
def recordRelease (s : MappingStats) : MappingStats := { s with releases := s.releases + 1 }

/-- The share of requests served by existing mappings; zero before any request. -/
def reuseRatio (s : MappingStats) : Float :=
  let total := s.newMappings + s.reuses
  if total = 0 then 0.0 else Float.ofNat s.reuses / Float.ofNat total

/-- One line for people. -/
def summary (s : MappingStats) : String :=
  "Mappings: " ++ toString s.newMappings ++ " new, " ++ toString s.reuses ++ " reused ("
    ++ Text.fixedFloat (s.reuseRatio * 100.0) 0 ++ "% reuse), "
    ++ toString s.overlapRejections ++ " overlaps rejected, "
    ++ toString s.releases ++ " released, peak " ++ toString s.peakLiveBytes ++ " bytes live"

end MappingStats

end Offloading
