import InpxWebReader.Scan.Environment

/-!
# Shares of the memory budget

The application divides one budget among the catalog cursor, the downloads and a scan, and the scan
divides its share again. The arithmetic is that of `std::uint64_t`: a subtraction below zero would
wrap. None does, and the shares add up to the budget at most; but the share of one cover decode can
be zero, which the image processor reads as no limit (`budgetsPartition_iff`).
-/

namespace InpxWebReader.App

open Foundation

/-! ### Shares -/

def resolveCatalogCursorMemoryBudget (maxSteadyStateMemoryBytes : UInt64) : UInt64 :=
  max 1 (maxSteadyStateMemoryBytes / 16)

def resolveDownloadManifestAggregateMemoryBudget (maxSteadyStateMemoryBytes : UInt64) : UInt64 :=
  max 1 (maxSteadyStateMemoryBytes / 16)

def resolveDownloadManifestMemoryBudget (maxSteadyStateMemoryBytes maxConcurrentDownloads : UInt64) :
    UInt64 :=
  resolveDownloadManifestAggregateMemoryBudget maxSteadyStateMemoryBytes / maxConcurrentDownloads

def resolveScanMemoryBudget (maxSteadyStateMemoryBytes : UInt64) : UInt64 :=
  maxSteadyStateMemoryBytes - resolveCatalogCursorMemoryBudget maxSteadyStateMemoryBytes -
    resolveDownloadManifestAggregateMemoryBudget maxSteadyStateMemoryBytes

/-- The checks of the constructor on the budgets. -/
def validateMemoryBudgets (maxCoverCacheBytes maxSteadyStateMemoryBytes
    maxConcurrentDownloads : UInt64) : Except Failure Unit := do
  if maxCoverCacheBytes = 0 ∨ maxSteadyStateMemoryBytes < 3 then
    throw (runtimeError
      "INPX resource budgets must reserve positive cursor, scan, and download memory.")
  else if maxConcurrentDownloads = 0 then
    throw (runtimeError "Maximum concurrent downloads must be positive.")
  else if resolveDownloadManifestMemoryBudget maxSteadyStateMemoryBytes maxConcurrentDownloads = 0
  then
    throw (runtimeError
      "Maximum concurrent downloads exceeds the reserved download manifest memory budget.")

/-! ### Shares of a scan -/

def resolveInFlightPayloadBudget (maxSteadyStateMemoryBytes : UInt64) : UInt64 :=
  max 1 (maxSteadyStateMemoryBytes / 16)

def resolveArchiveManifestBudget (maxSteadyStateMemoryBytes : UInt64) : UInt64 :=
  min (maxSteadyStateMemoryBytes / 2) (max 1 (maxSteadyStateMemoryBytes / 16))

def resolvePlanningStateBudget (maxSteadyStateMemoryBytes : UInt64) : UInt64 :=
  maxSteadyStateMemoryBytes / 2 - resolveArchiveManifestBudget maxSteadyStateMemoryBytes

def resolveCoverDecodeBudget (maxSteadyStateMemoryBytes maxConcurrentCoverDecodes : UInt64) :
    UInt64 :=
  min (64 * 1024 * 1024)
    ((maxSteadyStateMemoryBytes - maxSteadyStateMemoryBytes / 2 -
      resolveInFlightPayloadBudget maxSteadyStateMemoryBytes) / max 1 maxConcurrentCoverDecodes)

/-- The check of the image processor on the size of a decoded cover. -/
def exceedsDecodedLimit (maxDecodedBytes decodedBytes : UInt64) : Bool :=
  0 < maxDecodedBytes && maxDecodedBytes < decodedBytes

/-! ### What they are for -/

structure NoWrap (total scan : UInt64) : Prop where
  cursor : resolveCatalogCursorMemoryBudget total ≤ total
  downloads : resolveDownloadManifestAggregateMemoryBudget total ≤
    total - resolveCatalogCursorMemoryBudget total
  manifest : resolveArchiveManifestBudget scan ≤ scan / 2
  covers : scan / 2 ≤ scan
  payloads : resolveInFlightPayloadBudget scan ≤ scan - scan / 2

/-- All shares together, with the number of downloads and of cover decodes at one time. -/
def allShares (total downloads workers : UInt64) : Nat :=
  let scan := resolveScanMemoryBudget total
  (resolveCatalogCursorMemoryBudget total).toNat +
    downloads.toNat * (resolveDownloadManifestMemoryBudget total downloads).toNat +
    (resolveInFlightPayloadBudget scan).toNat + (resolveArchiveManifestBudget scan).toNat +
    (resolvePlanningStateBudget scan).toNat +
    workers.toNat * (resolveCoverDecodeBudget scan workers).toNat

/-- The budgets are a partition of the total, with a limit for every cover decode. -/
structure BudgetsPartition (total downloads workers : UInt64) : Prop where
  noWrap : NoWrap total (resolveScanMemoryBudget total)
  allShares_le : allShares total downloads workers ≤ total.toNat
  limited : 0 < resolveCoverDecodeBudget (resolveScanMemoryBudget total) workers

/-- A sixteenth, and at least one byte. -/
def sixteenth (n : Nat) : Nat := max 1 (n / 16)

def scanShare (total : Nat) : Nat := total - 2 * sixteenth total

/-- What a total leaves for the cover decodes. -/
def coverShare (total : Nat) : Nat :=
  scanShare total - scanShare total / 2 - sixteenth (scanShare total)

/-! ### Without wrapping -/

theorem toNat_max (a b : UInt64) : (max a b).toNat = max a.toNat b.toNat := by
  rw [Nat.max_def, UInt64.max_def]
  simp only [UInt64.le_iff_toNat_le]
  split <;> rfl

theorem toNat_min (a b : UInt64) : (min a b).toNat = min a.toNat b.toNat := by
  rw [Nat.min_def, UInt64.min_def]
  simp only [UInt64.le_iff_toNat_le]
  split <;> rfl

theorem toNat_sixteenth (n : UInt64) : (max 1 (n / 16)).toNat = sixteenth n.toNat := by
  rw [toNat_max, UInt64.toNat_div]
  rfl

theorem sixteenth_add_sixteenth_lt {n : Nat} (h : 3 ≤ n) : 2 * sixteenth n < n := by
  rw [sixteenth]
  omega

theorem half_add_sixteenth_le {n : Nat} (h : 0 < n) : n / 2 + sixteenth n ≤ n := by
  rw [sixteenth]
  omega

theorem accepted_iff {maxCoverCacheBytes total downloads : UInt64} :
    validateMemoryBudgets maxCoverCacheBytes total downloads = .ok () ↔
      maxCoverCacheBytes ≠ 0 ∧ 3 ≤ total.toNat ∧ downloads ≠ 0 ∧
        resolveDownloadManifestMemoryBudget total downloads ≠ 0 := by
  have hthree : total < 3 ↔ ¬3 ≤ total.toNat := by
    rw [UInt64.lt_iff_toNat_lt, Nat.not_le]
    rfl
  rw [validateMemoryBudgets]
  split_ifs with hpositive hdownloads hmanifest
  · refine ⟨fun h => (by cases h), fun h => ?_⟩
    rcases hpositive with hzero | hsmall
    · exact absurd hzero h.1
    · exact absurd h.2.1 (hthree.mp hsmall)
  · exact ⟨fun h => (by cases h), fun h => absurd hdownloads h.2.2.1⟩
  · exact ⟨fun h => (by cases h), fun h => absurd hmanifest h.2.2.2⟩
  · rw [not_or, hthree, not_not] at hpositive
    exact ⟨fun _ => ⟨hpositive.1, hpositive.2, hdownloads, hmanifest⟩, fun _ => rfl⟩

section Total

variable {total : UInt64} (htotal : 3 ≤ total.toNat)

include htotal

theorem cursor_le : resolveCatalogCursorMemoryBudget total ≤ total := by
  have hlt := sixteenth_add_sixteenth_lt htotal
  rw [UInt64.le_iff_toNat_le, resolveCatalogCursorMemoryBudget, toNat_sixteenth]
  omega

theorem downloads_le : resolveDownloadManifestAggregateMemoryBudget total ≤
    total - resolveCatalogCursorMemoryBudget total := by
  have hlt := sixteenth_add_sixteenth_lt htotal
  rw [UInt64.le_iff_toNat_le, UInt64.toNat_sub_of_le _ _ (cursor_le htotal),
    resolveDownloadManifestAggregateMemoryBudget, resolveCatalogCursorMemoryBudget,
    toNat_sixteenth]
  omega

/-- The scan's share is what the cursor and the downloads leave. -/
theorem toNat_resolveScanMemoryBudget :
    (resolveScanMemoryBudget total).toNat = scanShare total.toNat := by
  rw [resolveScanMemoryBudget, UInt64.toNat_sub_of_le _ _ (downloads_le htotal),
    UInt64.toNat_sub_of_le _ _ (cursor_le htotal), resolveDownloadManifestAggregateMemoryBudget,
    resolveCatalogCursorMemoryBudget, toNat_sixteenth, scanShare]
  omega

theorem resolveScanMemoryBudget_pos : 0 < (resolveScanMemoryBudget total).toNat := by
  have hlt := sixteenth_add_sixteenth_lt htotal
  rw [toNat_resolveScanMemoryBudget htotal, scanShare]
  omega

end Total

section Scan

variable {scan : UInt64} (hscan : 0 < scan.toNat)

theorem half_le (n : UInt64) : n / 2 ≤ n := by
  rw [UInt64.le_iff_toNat_le, UInt64.toNat_div]
  exact Nat.div_le_self _ _

theorem archiveManifest_le (n : UInt64) : resolveArchiveManifestBudget n ≤ n / 2 := by
  rw [UInt64.le_iff_toNat_le, resolveArchiveManifestBudget, toNat_min]
  exact Nat.min_le_left _ _

include hscan in
theorem inFlightPayload_le : resolveInFlightPayloadBudget scan ≤ scan - scan / 2 := by
  have hle := half_add_sixteenth_le hscan
  rw [UInt64.le_iff_toNat_le, UInt64.toNat_sub_of_le _ _ (half_le scan), UInt64.toNat_div,
    resolveInFlightPayloadBudget, toNat_sixteenth]
  change sixteenth scan.toNat ≤ scan.toNat - scan.toNat / 2
  omega

/-- The budgets of the scan's model are the machine's. -/
theorem toNat_resolveInFlightPayloadBudget (n : UInt64) :
    (resolveInFlightPayloadBudget n).toNat = Scan.resolveInFlightPayloadBudget n.toNat := by
  rw [resolveInFlightPayloadBudget, toNat_sixteenth]
  rfl

theorem toNat_resolveArchiveManifestBudget (n : UInt64) :
    (resolveArchiveManifestBudget n).toNat = Scan.resolveArchiveManifestBudget n.toNat := by
  rw [resolveArchiveManifestBudget, toNat_min, UInt64.toNat_div, toNat_sixteenth]
  rfl

theorem toNat_resolvePlanningStateBudget (n : UInt64) :
    (resolvePlanningStateBudget n).toNat = Scan.resolvePlanningStateBudget n.toNat := by
  rw [resolvePlanningStateBudget, UInt64.toNat_sub_of_le _ _ (archiveManifest_le n),
    toNat_resolveArchiveManifestBudget, UInt64.toNat_div]
  rfl

include hscan in
theorem toNat_resolveCoverDecodeBudget (workers : UInt64) :
    (resolveCoverDecodeBudget scan workers).toNat =
      min (64 * 1024 * 1024)
        ((scan.toNat - scan.toNat / 2 - sixteenth scan.toNat) / max 1 workers.toNat) := by
  rw [resolveCoverDecodeBudget, toNat_min, UInt64.toNat_div,
    UInt64.toNat_sub_of_le _ _ (inFlightPayload_le hscan),
    UInt64.toNat_sub_of_le _ _ (half_le scan), UInt64.toNat_div, resolveInFlightPayloadBudget,
    toNat_sixteenth, toNat_max]
  rfl

/-- The limit that the scan's model hands to the image processor is the machine's. -/
theorem toNat_resolveCoverDecodeBudget_env (env : Scan.ScanEnv) {workers : UInt64}
    (hbudget : scan.toNat = env.maxSteadyStateMemoryBytes)
    (hworkers : workers.toNat = env.maxInFlightPayloads) (hpos : 0 < scan.toNat) :
    (resolveCoverDecodeBudget scan workers).toNat = env.maxDecodedCoverBytes := by
  rw [toNat_resolveCoverDecodeBudget hpos, hbudget, hworkers]
  rfl

include hscan in
/-- All cover decodes together keep to what the rest of the scan leaves. -/
theorem workers_mul_coverDecode_le (workers : UInt64) :
    workers.toNat * (resolveCoverDecodeBudget scan workers).toNat ≤
      scan.toNat - scan.toNat / 2 - sixteenth scan.toNat := by
  rw [toNat_resolveCoverDecodeBudget hscan]
  generalize scan.toNat - scan.toNat / 2 - sixteenth scan.toNat = share
  calc workers.toNat * min (64 * 1024 * 1024) (share / max 1 workers.toNat)
    _ ≤ max 1 workers.toNat * (share / max 1 workers.toNat) :=
      Nat.mul_le_mul (Nat.le_max_right _ _) (Nat.min_le_right _ _)
    _ ≤ share := Nat.mul_div_le _ _

include hscan in
/-- A cover decode has a limit exactly where there is a byte for each. -/
theorem coverDecode_pos_iff (workers : UInt64) :
    0 < resolveCoverDecodeBudget scan workers ↔
      max 1 workers.toNat ≤ scan.toNat - scan.toNat / 2 - sixteenth scan.toNat := by
  rw [UInt64.lt_iff_toNat_lt, toNat_resolveCoverDecodeBudget hscan]
  generalize scan.toNat - scan.toNat / 2 - sixteenth scan.toNat = share
  have hpos : 0 < share / max 1 workers.toNat ↔ max 1 workers.toNat ≤ share :=
    Nat.div_pos_iff.trans (and_iff_right (Nat.lt_of_lt_of_le Nat.one_pos (Nat.le_max_left _ _)))
  rw [← hpos, UInt64.toNat_zero]
  omega

end Scan

/-! ### The partition -/

theorem noWrap {total : UInt64} (htotal : 3 ≤ total.toNat) :
    NoWrap total (resolveScanMemoryBudget total) where
  cursor := cursor_le htotal
  downloads := downloads_le htotal
  manifest := archiveManifest_le _
  covers := half_le _
  payloads := inFlightPayload_le (resolveScanMemoryBudget_pos htotal)

theorem downloads_mul_manifest_le (total downloads : UInt64) :
    downloads.toNat * (resolveDownloadManifestMemoryBudget total downloads).toNat ≤
      sixteenth total.toNat := by
  rw [resolveDownloadManifestMemoryBudget, UInt64.toNat_div,
    resolveDownloadManifestAggregateMemoryBudget, toNat_sixteenth]
  exact Nat.mul_div_le _ _

theorem allShares_le {total : UInt64} (htotal : 3 ≤ total.toNat) (downloads workers : UInt64) :
    allShares total downloads workers ≤ total.toNat := by
  have hlt := sixteenth_add_sixteenth_lt htotal
  have hpos := resolveScanMemoryBudget_pos htotal
  have hscan := toNat_resolveScanMemoryBudget htotal
  have hdownloads := downloads_mul_manifest_le total downloads
  have hcovers := workers_mul_coverDecode_le hpos workers
  have hhalf := half_add_sixteenth_le hpos
  have hmanifest := UInt64.le_iff_toNat_le.mp
    (archiveManifest_le (resolveScanMemoryBudget total))
  rw [UInt64.toNat_div] at hmanifest
  rw [scanShare] at hscan
  rw [allShares, resolveCatalogCursorMemoryBudget, toNat_sixteenth, resolveInFlightPayloadBudget,
    toNat_sixteenth, resolvePlanningStateBudget,
    UInt64.toNat_sub_of_le _ _ (archiveManifest_le _), UInt64.toNat_div]
  simp only [UInt64.reduceToNat] at hmanifest ⊢
  omega

/-- The budgets partition an accepted total exactly where a cover decode gets a byte or more. -/
theorem budgetsPartition_iff {maxCoverCacheBytes total downloads : UInt64} (workers : UInt64)
    (haccepted : validateMemoryBudgets maxCoverCacheBytes total downloads = .ok ()) :
    BudgetsPartition total downloads workers ↔ max 1 workers.toNat ≤ coverShare total.toNat := by
  obtain ⟨-, htotal, -, -⟩ := accepted_iff.mp haccepted
  have hpos := coverDecode_pos_iff (resolveScanMemoryBudget_pos htotal) workers
  rw [toNat_resolveScanMemoryBudget htotal] at hpos
  exact ⟨fun h => hpos.mp h.limited,
    fun h => ⟨noWrap htotal, allShares_le htotal downloads workers, hpos.mpr h⟩⟩

/-- One gibibyte, two downloads and eight workers. -/
theorem budgetsPartition_gibibyte : BudgetsPartition (1024 * 1024 * 1024) 2 8 :=
  (@budgetsPartition_iff 1 (1024 * 1024 * 1024) 2 8 (by decide +kernel)).mpr (by decide +kernel)

/-- Three bytes are accepted, and leave a cover decode no byte and so no limit. -/
theorem not_budgetsPartition_three :
    validateMemoryBudgets 1 3 1 = .ok () ∧ ¬BudgetsPartition 3 1 1 ∧
      exceedsDecodedLimit (resolveCoverDecodeBudget (resolveScanMemoryBudget 3) 1)
        (64 * 1024 * 1024 * 1024) = false := by
  refine ⟨by decide +kernel, fun h => ?_, by decide +kernel⟩
  exact absurd h.limited (by decide +kernel)

end InpxWebReader.App
