import DataMgr.Foundation.Machine
import DataMgr.Foundation.ByteMemory

/-! # Automatic backups

A backup of a store is `autoBackup.bak` and, for an encrypted store, the key it was
written under. While a new one is made the old one is kept beside it as `.bk` and the
database is exported to `.tmp`. The process may be killed between any two operations
and inside a copy; `Init` then tells from the side files and the keys what to do.
-/

namespace DataMgr.Backup

open DataMgr.Foundation

/-- `autoBackup.bak` and its two side files. -/
inductive BackupFile where
  | bak
  | bk
  | tmp
deriving DecidableEq, Repr

/-- The files, and the `sKey` of the database's and of the backup's secret key metadata
where there is one. -/
structure Disk where
  files : BackupFile → Option Bytes
  dbKey : Option Bytes
  backupKey : Option Bytes

namespace Disk

def write (d : Disk) (file : BackupFile) (content : Option Bytes) : Disk :=
  { d with files := fun f => if f = file then content else d.files f }

def isFileExist (d : Disk) (file : BackupFile) : Bool := (d.files file).isSome

end Disk

/-! ## Programs

The functions of the manager as the operations they make, in order.
-/

inductive BackupCmd where
  /-- `CopyFile`, up to the truncated output file. -/
  | copyFile (oldPath newPath : BackupFile)
  /-- `CopyFile` with this many bytes written. -/
  | copyRest (oldPath newPath : BackupFile) (written : Nat)
  | exporter
  | loadKey
  | removeFile (path : BackupFile)
  | saveMeta
  | getClearType
deriving DecidableEq, Repr

def keepData : List BackupCmd := [.copyFile .bak .bk]

def saveData : List BackupCmd :=
  [.copyFile .tmp .bak, .removeFile .tmp, .saveMeta, .removeFile .bk]

def rollBackData : List BackupCmd := [.copyFile .bk .bak, .removeFile .tmp, .removeFile .bk]

def cleanData : List BackupCmd := [.removeFile .tmp, .removeFile .bk]

/-- `DoBackup` of a store whose exporter is registered. -/
def doBackup : List BackupCmd := keepData ++ [.exporter, .loadKey] ++ saveData

/-- The part of `Init` about one store with `isBackup` set and not dirty. -/
def init : List BackupCmd := [.getClearType]

inductive ClearType where
  | doNothing
  | rollback
  | cleanData
deriving DecidableEq, Repr

/-- A backup key that cannot be loaded leaves `backupPassword` empty. -/
def getClearType (d : Disk) : ClearType :=
  match d.dbKey with
  | some dbPassword =>
      let backupPassword := d.backupKey.getD []
      if dbPassword ≠ backupPassword ∧ d.isFileExist .bk then .rollback
      else if dbPassword = backupPassword ∧ d.isFileExist .bk then .cleanData
      else .doNothing
  | none =>
      if d.isFileExist .tmp then .rollback
      else if !d.isFileExist .tmp ∧ d.isFileExist .bk then .cleanData
      else .doNothing

structure StoredBackup where
  content : Bytes
  key : Option Bytes
deriving DecidableEq, Repr

structure BackupState where
  isEncrypt : Bool
  disk : Disk
  /-- The process is alive. -/
  up : Bool
  todo : List BackupCmd
  /-- The backup that was there when the last `DoBackup` began, and the one it makes. -/
  old : Option StoredBackup
  new : Option StoredBackup

inductive BackupAction where
  /-- `DoBackup` begins; `content` is what a complete export will be. -/
  | doBackup (content : Bytes)
  /-- The next operation of the process. -/
  | run
  /-- The exporter has written something to `.tmp`. -/
  | exporting (written : Bytes)
  /-- The exporter returns. -/
  | exported (result : Bool)
  /-- The database gets a new key. -/
  | rekey (sKey : Bytes)
  | kill
  | restart
deriving DecidableEq, Repr

namespace BackupState

def start (isEncrypt : Bool) (dbKey : Option Bytes) (backup : Option StoredBackup) :
    BackupState where
  isEncrypt
  disk := {
    files := fun f => match f with
      | .bak => backup.map StoredBackup.content
      | .bk | .tmp => none
    dbKey
    backupKey := backup.bind StoredBackup.key }
  up := true
  todo := []
  old := backup
  new := backup

def stored (s : BackupState) : Option StoredBackup :=
  (s.disk.files .bak).map fun content => ⟨content, s.disk.backupKey⟩

def runCmd (s : BackupState) (rest : List BackupCmd) : BackupCmd → Option BackupState
  | .copyFile oldPath newPath =>
      if s.disk.isFileExist oldPath then
        some { s with
          disk := s.disk.write newPath (some [])
          todo := .copyRest oldPath newPath 0 :: rest }
      else some { s with todo := rest }
  | .copyRest oldPath newPath written =>
      let content := (s.disk.files oldPath).getD []
      if written < content.length then
        some { s with
          disk := s.disk.write newPath (some (content.take (written + 1)))
          todo := .copyRest oldPath newPath (written + 1) :: rest }
      else some { s with todo := rest }
  | .exporter => none
  | .loadKey =>
      if s.isEncrypt && s.disk.dbKey.isNone then some { s with todo := [] }
      else some { s with todo := rest }
  | .removeFile path => some { s with disk := s.disk.write path none, todo := rest }
  | .saveMeta =>
      -- a key that could not be loaded has an empty `sKey`
      if s.disk.dbKey.getD [] ≠ [] then
        some { s with disk := { s.disk with backupKey := s.disk.dbKey }, todo := rest }
      else some { s with todo := rest }
  | .getClearType =>
      match getClearType s.disk with
      | .rollback => some { s with todo := rollBackData ++ rest }
      | .cleanData => some { s with todo := cleanData ++ rest }
      | .doNothing => some { s with todo := rest }

def step (s : BackupState) : BackupAction → Option BackupState
  | .doBackup content =>
      if s.up ∧ s.todo = [] then
        some { s with todo := doBackup, old := s.stored, new := some ⟨content, s.disk.dbKey⟩ }
      else none
  | .run =>
      match s.up, s.todo with
      | true, cmd :: rest => s.runCmd rest cmd
      | _, _ => none
  | .exporting written =>
      match s.up, s.todo with
      | true, .exporter :: _ => some { s with disk := s.disk.write .tmp (some written) }
      | _, _ => none
  | .exported result =>
      match s.up, s.todo with
      | true, .exporter :: rest =>
          if result then
            some { s with
              disk := s.disk.write .tmp (s.new.map StoredBackup.content)
              todo := rest }
          else some { s with todo := cleanData }
      | _, _ => none
  | .rekey sKey =>
      if s.up ∧ s.todo = [] ∧ s.isEncrypt ∧ sKey ≠ [] then
        some { s with disk := { s.disk with dbKey := some sKey } }
      else none
  | .kill => if s.up then some { s with up := false, todo := [] } else none
  | .restart => if s.up then none else some { s with up := true, todo := init }

end BackupState

def backupMachine : Machine BackupState BackupAction := ⟨BackupState.step⟩

end DataMgr.Backup
