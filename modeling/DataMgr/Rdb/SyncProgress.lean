import DataMgr.Foundation.OrderedMap
import DataMgr.Rdb.FinishTask

/-! # Totals of a progress report

The callback of `GetDBProcessCB` fills one detail for each device. The change count is assigned for
each table, not added up, and whether there is a download is asked before the total is filled in.
-/

namespace DataMgr.Rdb

open DataMgr.Foundation

structure TransferInfo where
  total : UInt32 := 0
  successCount : UInt32 := 0
  failCount : UInt32 := 0
  insertCount : UInt32 := 0
  updateCount : UInt32 := 0
  deleteCount : UInt32 := 0

structure TableProcess where
  upLoadInfo : TransferInfo := {}
  downLoadInfo : TransferInfo := {}

/-- `SyncProcess`, as far as the totals are made of it. -/
structure DeviceProcess where
  process : ProcessStatus
  tableProcess : OrderedMap String TableProcess

structure GenStatistic where
  total : UInt32 := 0
  success : UInt32 := 0
  failed : UInt32 := 0
  untreated : UInt32 := 0

def TransferInfo.statistic (info : TransferInfo) : GenStatistic :=
  ⟨info.total, info.successCount, info.failCount, info.total - info.successCount - info.failCount⟩

structure GenTableDetail where
  upload : GenStatistic := {}
  download : GenStatistic := {}

structure GenProgressDetail where
  progress : ProcessStatus
  changeCount : UInt64 := 0
  details : String → Option GenTableDetail := fun _ => none

/-- The detail of a device and the locals of its round. -/
structure DeviceRound where
  detail : GenProgressDetail
  totalCount : UInt32 := 0
  isDownload : Bool := false

def tableStep (process : ProcessStatus) (s : DeviceRound) (entry : String × TableProcess) :
    DeviceRound :=
  let table := (s.detail.details entry.1).getD {}
  let upLoad := entry.2.upLoadInfo
  let downLoad := entry.2.downLoadInfo
  { detail :=
      { s.detail with
        changeCount :=
          if process = .finished then
            (downLoad.insertCount + downLoad.updateCount + downLoad.deleteCount).toUInt64
          else 0
        details := Function.update s.detail.details entry.1
          (some ⟨upLoad.statistic, downLoad.statistic⟩) }
    totalCount := s.totalCount + upLoad.total + downLoad.total
    isDownload := 0 < table.download.total }

variable (process : DeviceProcess)

def deviceRound : DeviceRound :=
  process.tableProcess.entries.foldl (tableStep process.process)
    { detail := { progress := process.process } }

/-- The detail, and whether the cloud lock is renewed. `held` says that the lock has the flag
`APPLICATION`, which renewing sets again. -/
def deviceResult (held : Bool) (process : DeviceProcess) : GenProgressDetail × Bool :=
  let s := deviceRound process
  (s.detail,
    s.isDownload && (process.process = .finished || process.process = .processing) && held)

def dbProcessCB (held : Bool) (processes : OrderedMap String DeviceProcess) :
    OrderedMap String (GenProgressDetail × Bool) :=
  processes.mapValues (deviceResult held)

def TableProcess.changes (table : TableProcess) : Nat :=
  table.downLoadInfo.insertCount.toNat + table.downLoadInfo.updateCount.toNat +
    table.downLoadInfo.deleteCount.toNat

namespace DeviceProcess

def tables : List TableProcess := process.tableProcess.values

def running : Prop :=
  process.process = .finished ∨ process.process = .processing

/-- The totals of all tables, and the lock renewed for a download of any of them. -/
def ReportedAs (held : Bool) (result : GenProgressDetail × Bool) : Prop :=
  (process.process = .finished →
      result.1.changeCount.toNat = (process.tables.map TableProcess.changes).sum) ∧
    (process.running → held = true →
      (result.2 = true ↔ ∃ table ∈ process.tables, 0 < table.downLoadInfo.total))

/-- Only the last table has changes, and nothing is downloaded while the lock is held. -/
def LastOnly (held : Bool) : Prop :=
  (process.process = .finished →
      (∀ table ∈ process.tables.dropLast, table.changes = 0) ∧
        ∀ table ∈ process.tables.getLast?, table.changes < 2 ^ 32) ∧
    (process.running → held = true → ∀ table ∈ process.tables, ¬ 0 < table.downLoadInfo.total)

end DeviceProcess

theorem isDownload_foldl (process : ProcessStatus) (entries : List (String × TableProcess))
    (hnodup : (entries.map Prod.fst).Nodup) (s : DeviceRound) (hdownload : s.isDownload = false)
    (hfresh : ∀ key ∈ entries.map Prod.fst, s.detail.details key = none) :
    (entries.foldl (tableStep process) s).isDownload = false := by
  induction entries generalizing s with
  | nil => exact hdownload
  | cons entry entries ih =>
      rw [List.map_cons, List.nodup_cons] at hnodup
      apply ih hnodup.2
      · simp [tableStep, hfresh entry.1 (by simp)]
      · intro key hkey
        have hne : key ≠ entry.1 := fun heq => hnodup.1 (heq ▸ hkey)
        exact (Function.update_of_ne hne ..).trans (hfresh key (List.mem_cons_of_mem _ hkey))

theorem changeCount_foldl (entries : List (String × TableProcess)) (s : DeviceRound) :
    (entries.foldl (tableStep .finished) s).detail.changeCount.toNat =
      ((entries.map Prod.snd).getLast?.map fun table => table.changes % 2 ^ 32).getD
        s.detail.changeCount.toNat := by
  cases entries using List.reverseRecOn with
  | nil => rfl
  | append_singleton entries entry =>
      simp [List.foldl_append, tableStep, TableProcess.changes]

theorem mod_last_eq_sum_iff (tables : List TableProcess) :
    (tables.getLast?.map fun table => table.changes % 2 ^ 32).getD 0 =
        (tables.map TableProcess.changes).sum ↔
      (∀ table ∈ tables.dropLast, table.changes = 0) ∧
        ∀ table ∈ tables.getLast?, table.changes < 2 ^ 32 := by
  cases tables using List.reverseRecOn with
  | nil => simp
  | append_singleton tables last =>
      have hzero : (∀ table ∈ tables, table.changes = 0) ↔
          (tables.map TableProcess.changes).sum = 0 := by
        rw [List.sum_eq_zero_iff]
        simp
      simp only [List.getLast?_concat, List.dropLast_concat, List.map_append, List.sum_append,
        hzero, Option.map_some, Option.getD_some, Option.mem_some_iff, forall_eq', List.map_cons,
        List.map_nil, List.sum_singleton]
      omega

theorem reportedAs_iff (held : Bool) (process : DeviceProcess) :
    process.ReportedAs held (deviceResult held process) ↔ process.LastOnly held := by
  have hnever : (deviceRound process).isDownload = false :=
    isDownload_foldl _ _ process.tableProcess.nodup_keys _ rfl fun _ _ => rfl
  refine and_congr (forall_congr' fun hfinished => ?_) (forall₂_congr fun _ _ => ?_)
  · have hcount := changeCount_foldl process.tableProcess.entries
      { detail := { progress := process.process } }
    rw [← mod_last_eq_sum_iff]
    unfold deviceResult deviceRound
    rw [hfinished] at hcount ⊢
    rw [hcount]
    rfl
  · simp [deviceResult, hnever]

/-- Every device is reported with the totals of its tables exactly if in each only the last table
has changes, and no download runs while the lock is held. -/
theorem progress_totals_iff (held : Bool) (processes : OrderedMap String DeviceProcess) :
    (∀ id, ∀ process ∈ processes.find id, ∃ result ∈ (dbProcessCB held processes).find id,
        process.ReportedAs held result) ↔
      ∀ id, ∀ process ∈ processes.find id, process.LastOnly held := by
  refine forall₃_congr fun id process hprocess => ?_
  rw [dbProcessCB, OrderedMap.find_mapValues, Option.mem_def.mp hprocess, ← reportedAs_iff]
  simp

def changedTable (count : UInt32) : TableProcess :=
  { downLoadInfo := { total := count, insertCount := count } }

def twoTables : DeviceProcess :=
  ⟨.finished, ⟨[("a", changedTable 2), ("b", changedTable 3)], by decide⟩⟩

/-- Of two tables the changes of the second are reported, and the lock is not renewed. -/
theorem progress_reports_last_table :
    (deviceResult true twoTables).1.changeCount = 3 ∧ (deviceResult true twoTables).2 = false := by
  decide

end DataMgr.Rdb
