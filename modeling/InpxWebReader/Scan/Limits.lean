import InpxWebReader.Foundation.Exception

/-!
# Budgets and limits of a scan

What the scan derives from the two budgets it is configured with, and the failure of a collection
that is full.
-/

namespace InpxWebReader.Scan

open Foundation

def maxScanWorkerCount : Nat := 8

/-- `ResolveScanWorkerCountForHardware` for the policy that uses every thread. -/
def resolveScanWorkerCountForHardware (hardwareConcurrency fallbackWorkerCount : Nat) : Nat :=
  let observedWorkerCount :=
    if hardwareConcurrency = 0 then fallbackWorkerCount else hardwareConcurrency
  max 1 (min maxScanWorkerCount observedWorkerCount)

def resolveInpxPayloadWorkerWindow (maxWorkerCount hardwareConcurrency : Nat) : Nat :=
  if 0 < maxWorkerCount then min maxWorkerCount maxScanWorkerCount
  else resolveScanWorkerCountForHardware hardwareConcurrency 2

/-- There is always room for a payload once the window is empty. -/
theorem resolveInpxPayloadWorkerWindow_pos (maxWorkerCount hardwareConcurrency : Nat) :
    0 < resolveInpxPayloadWorkerWindow maxWorkerCount hardwareConcurrency := by
  rw [resolveInpxPayloadWorkerWindow, resolveScanWorkerCountForHardware, maxScanWorkerCount]
  split
  · omega
  · exact Nat.lt_of_lt_of_le Nat.one_pos (Nat.le_max_left _ _)

def resolveInFlightPayloadBudget (maxSteadyStateMemoryBytes : Nat) : Nat :=
  max 1 (maxSteadyStateMemoryBytes / 16)

def resolveArchiveManifestBudget (maxSteadyStateMemoryBytes : Nat) : Nat :=
  min (maxSteadyStateMemoryBytes / 2) (max 1 (maxSteadyStateMemoryBytes / 16))

def resolvePlanningStateBudget (maxSteadyStateMemoryBytes : Nat) : Nat :=
  maxSteadyStateMemoryBytes / 2 - resolveArchiveManifestBudget maxSteadyStateMemoryBytes

structure ScanPlanningLimits where
  maxInpSourceBytes : Nat := 1
  maxRecords : Nat := 1
  maxSegments : Nat := 1
  maxFilesystemEntries : Nat := 1

def resolveCoarseCountLimit (budgetBytes allowanceBytes : Nat)
    (absoluteMaximum : Nat := 2 ^ 64 - 1) : Nat :=
  min (max 1 (budgetBytes / allowanceBytes)) absoluteMaximum

def resolveScanPlanningLimits (planningBudgetBytes : Nat) : ScanPlanningLimits where
  maxInpSourceBytes := max 1 (planningBudgetBytes / 2)
  maxRecords := resolveCoarseCountLimit planningBudgetBytes 512
  maxSegments := resolveCoarseCountLimit planningBudgetBytes 4096
  maxFilesystemEntries := resolveCoarseCountLimit planningBudgetBytes 256 1000000

/-- The failure of `RequireCollectionRoom`. -/
def collectionFull (maxSize : Nat) (collectionLabel : String) : Failure :=
  .standard (ascii "INPX " ++ ascii collectionLabel ++
    ascii " exceeds the configured scan limit of " ++ decimal maxSize ++ ascii " entries.")

def requireCollectionRoom (currentSize maxSize : Nat) (collectionLabel : String) :
    Except Failure Unit :=
  if maxSize ≤ currentSize then .error (collectionFull maxSize collectionLabel) else .ok ()

/-- `InsertActiveLibId`: the ids with the new one, or `none` when it was there. -/
def insertActiveLibId (values : List Bytes) (value : Bytes) (maxRecords : Nat) :
    Except Failure (Option (List Bytes)) :=
  if value ∈ values then .ok none
  else do
    requireCollectionRoom values.length maxRecords "active LibId index"
    return some (values ++ [value])

end InpxWebReader.Scan
