import DataMgr.Backup.BackupManager

/-! # Backups across crashes

`Init` classifies what a crash left behind by two side files and two keys. At every
point of `DoBackup` and of a recovery the invariant says what the three files and
the key are, and that the classification leads back to a whole backup. Three points
are not classified right; a run that is not killed there always finds, after
`Init`, the old backup with its key or the new one with its own.
-/

namespace DataMgr.Backup

open DataMgr.Foundation StoredBackup Machine

/-- An encrypted store has a key, and no other does. -/
def KeyOk (isEncrypt : Bool) (key : Option Bytes) : Prop :=
  if isEncrypt then ∃ sKey, sKey ≠ [] ∧ key = some sKey else key = none

variable (d : Disk) (s : BackupState)

namespace Disk

@[simp] theorem files_write (file f : BackupFile) (content : Option Bytes) :
    (d.write file content).files f = if f = file then content else d.files f := rfl

@[simp] theorem dbKey_write (file : BackupFile) (content : Option Bytes) :
    (d.write file content).dbKey = d.dbKey := rfl

@[simp] theorem backupKey_write (file : BackupFile) (content : Option Bytes) :
    (d.write file content).backupKey = d.backupKey := rfl

def Holds (b : Option StoredBackup) : Prop :=
  d.files .bak = b.map content ∧ d.backupKey = b.bind key

instance (d : Disk) (b : Option StoredBackup) : Decidable (d.Holds b) :=
  inferInstanceAs (Decidable (_ ∧ _))

theorem holds_write {d : Disk} {file : BackupFile} {content : Option Bytes}
    {b : Option StoredBackup} (hfile : .bak ≠ file) :
    (d.write file content).Holds b ↔ d.Holds b := by
  rw [Holds, Holds, files_write, if_neg hfile, backupKey_write]

end Disk

open Disk

section

variable {d : Disk}

theorem getClearType_encrypted (h : KeyOk true d.dbKey) :
    getClearType d =
      if d.files .bk = none then .doNothing
      else if d.dbKey = d.backupKey then .cleanData else .rollback := by
  obtain ⟨sKey, hne, hkey⟩ := h
  have hsame : d.dbKey = d.backupKey ↔ sKey = d.backupKey.getD [] := by
    rw [hkey]
    cases hb : d.backupKey with
    | none => simp [hne]
    | some key => simp
  rw [getClearType, hkey]
  cases hbk : d.files .bk with
  | none => simp [isFileExist, hbk]
  | some content =>
      rw [hkey] at hsame
      by_cases heq : sKey = d.backupKey.getD []
      · simp [isFileExist, hbk, hsame.mpr heq, ← heq]
      · simp [isFileExist, hbk, heq, hsame]

theorem getClearType_plain (h : KeyOk false d.dbKey) :
    getClearType d =
      if d.files .tmp ≠ none then .rollback
      else if d.files .bk ≠ none then .cleanData else .doNothing := by
  have hkey : d.dbKey = none := h
  rw [getClearType, hkey]
  cases htmp : d.files .tmp <;> cases hbk : d.files .bk <;> simp [isFileExist, htmp, hbk]

/-- What each answer of the classification says of the files and the keys. -/
theorem getClearType_spec {isEncrypt : Bool} (hkey : KeyOk isEncrypt d.dbKey) :
    (getClearType d = .rollback →
      (isEncrypt = true ∧ d.files .bk ≠ none ∧ d.dbKey ≠ d.backupKey) ∨
        isEncrypt = false ∧ d.files .tmp ≠ none) ∧
    (getClearType d = .cleanData →
      (isEncrypt = true ∧ d.dbKey = d.backupKey) ∨ isEncrypt = false ∧ d.files .tmp = none) ∧
    (getClearType d = .doNothing →
      d.files .bk = none ∧ (isEncrypt = true ∨ d.files .tmp = none)) := by
  cases isEncrypt with
  | true =>
      rw [getClearType_encrypted hkey]
      by_cases hbk : d.files .bk = none
      · simp [hbk]
      · by_cases hsame : d.dbKey = d.backupKey <;> simp [hbk, hsame]
  | false =>
      rw [getClearType_plain hkey]
      by_cases htmp : d.files .tmp = none
      · by_cases hbk : d.files .bk = none <;> simp [htmp, hbk]
      · simp [htmp]

end

namespace BackupState

def Whole : Prop := s.disk.Holds s.old ∨ s.disk.Holds s.new

/-- What is promised after `Init`: a whole backup and no side file. -/
def Intact : Prop :=
  s.Whole ∧ s.disk.files .bk = none ∧ s.disk.files .tmp = none

instance (s : BackupState) : Decidable s.Whole := inferInstanceAs (Decidable (_ ∨ _))

instance (s : BackupState) : Decidable s.Intact := inferInstanceAs (Decidable (_ ∧ _))

def RollbackOk : Prop :=
  (∃ o, s.old = some o ∧ s.disk.files .bk = some o.content ∧ s.disk.backupKey = o.key) ∨
    s.disk.files .bk = none ∧ s.Whole

/-- `Init` leads to a whole backup without side files. -/
def Recoverable : Prop :=
  match getClearType s.disk with
  | .rollback => s.RollbackOk
  | .cleanData => s.Whole
  | .doNothing => s.Intact

/-- The side files can be removed: the backup is whole, and a crash in between that is
answered by a rollback does no harm. -/
def Cleanable : Prop :=
  s.Whole ∧ (getClearType s.disk = .rollback → s.RollbackOk)

/-- The old backup is in place and has been kept. -/
def Kept : Prop :=
  s.disk.Holds s.old ∧ s.disk.files .bk = s.old.map content

/-- The backup being made carries the database's key. -/
def Making (b : StoredBackup) : Prop :=
  s.new = some b ∧ b.key = s.disk.dbKey

/-- The old backup is kept and its key stored, while `.bak` is being replaced. -/
def Replacing : Prop :=
  s.disk.files .bk = s.old.map content ∧ s.disk.backupKey = s.old.bind key

inductive Stage (s : BackupState) : List BackupCmd → Prop where
  | idle (h : s.Intact) : Stage s []
  | begin (hold : s.disk.Holds s.old) (hbk : s.disk.files .bk = none)
      (htmp : s.disk.files .tmp = none) (b : StoredBackup) (hb : s.Making b) : Stage s doBackup
  | keeping (o : StoredBackup) (n : Nat) (ho : s.old = some o) (hold : s.disk.Holds s.old)
      (hbk : s.disk.files .bk = some (o.content.take n)) (hn : n ≤ o.content.length)
      (htmp : s.disk.files .tmp = none) (b : StoredBackup) (hb : s.Making b) :
      Stage s (.copyRest .bak .bk n :: .exporter :: .loadKey :: saveData)
  | exporting (h : s.Kept) (b : StoredBackup) (hb : s.Making b) :
      Stage s (.exporter :: .loadKey :: saveData)
  | exported (h : s.Kept) (b : StoredBackup) (hb : s.Making b)
      (htmp : s.disk.files .tmp = some b.content) : Stage s (.loadKey :: saveData)
  | save (h : s.Kept) (b : StoredBackup) (hb : s.Making b)
      (htmp : s.disk.files .tmp = some b.content) : Stage s saveData
  | saving (h : s.Replacing) (b : StoredBackup) (hb : s.Making b) (n : Nat)
      (htmp : s.disk.files .tmp = some b.content)
      (hbak : s.disk.files .bak = some (b.content.take n)) (hn : n ≤ b.content.length) :
      Stage s (.copyRest .tmp .bak n :: [.removeFile .tmp, .saveMeta, .removeFile .bk])
  | saved (h : s.Replacing) (b : StoredBackup) (hb : s.Making b)
      (htmp : s.disk.files .tmp = some b.content) (hbak : s.disk.files .bak = some b.content) :
      Stage s [.removeFile .tmp, .saveMeta, .removeFile .bk]
  | saveKey (h : s.Replacing) (b : StoredBackup) (hb : s.Making b)
      (htmp : s.disk.files .tmp = none) (hbak : s.disk.files .bak = some b.content) :
      Stage s [.saveMeta, .removeFile .bk]
  | init (h : s.Recoverable) : Stage s init
  | rollBack (h : s.Recoverable) (htype : getClearType s.disk = .rollback) : Stage s rollBackData
  | rolling (o : StoredBackup) (n : Nat) (ho : s.old = some o)
      (hbk : s.disk.files .bk = some o.content) (hkey : s.disk.backupKey = o.key)
      (hbak : s.disk.files .bak = some (o.content.take n)) (hn : n ≤ o.content.length)
      (htype : getClearType s.disk = .rollback) : Stage s (.copyRest .bk .bak n :: cleanData)
  | clean (h : s.Cleanable) : Stage s cleanData
  | cleanBk (h : s.Cleanable) (htmp : s.disk.files .tmp = none) : Stage s [.removeFile .bk]

structure BackupInv (s : BackupState) : Prop where
  dbKey : KeyOk s.isEncrypt s.disk.dbKey
  old : ∀ o, s.old = some o → KeyOk s.isEncrypt o.key
  new : ∀ b, s.new = some b → KeyOk s.isEncrypt b.key
  down : s.up = false → s.todo = [] ∧ s.Recoverable
  running : s.up = true → s.Stage s.todo

variable {s s' : BackupState}

/-- The points at which a crash is not answered right: in the first backup of an
encrypted store, from the first byte of `.tmp` until its key is saved, as no `.bk` says that
there is something to do; while the old backup is being copied to `.bk`, when the
database's key has changed; and while `.tmp` is being copied over the backup, when there
is no `.bk` to go back to or the unchanged key says that all is done. -/
def Torn (s : BackupState) : Prop :=
  (s.isEncrypt = true ∧ s.disk.files .bk = none ∧
    (s.disk.files .tmp ≠ none ∨ s.todo.head? = some .saveMeta)) ∨
  (∃ n rest, s.todo = .copyRest .bak .bk n :: rest ∧ s.isEncrypt = true ∧
    s.disk.dbKey ≠ s.disk.backupKey ∧ n < ((s.disk.files .bak).getD []).length) ∨
  ∃ n rest, s.todo = .copyRest .tmp .bak n :: rest ∧ n < ((s.disk.files .tmp).getD []).length ∧
    (s.disk.files .bk = none ∨ s.isEncrypt = true ∧ s.disk.dbKey = s.disk.backupKey)

theorem recoverable_of_cleanable (hinv : s.BackupInv) (h : s.Cleanable)
    (hsafe : ¬ (s.isEncrypt = true ∧ s.disk.files .bk = none ∧ s.disk.files .tmp ≠ none)) :
    s.Recoverable := by
  rw [Recoverable]
  cases htype : getClearType s.disk with
  | rollback => exact h.2 htype
  | cleanData => exact h.1
  | doNothing =>
      obtain ⟨hbk, hkind⟩ := (getClearType_spec hinv.dbKey).2.2 htype
      refine ⟨h.1, hbk, ?_⟩
      rcases hkind with henc | htmp
      · by_contra htmp
        exact hsafe ⟨henc, hbk, htmp⟩
      · exact htmp

theorem Kept.rollbackOk (h : s.Kept) : s.RollbackOk := by
  cases hold : s.old with
  | none => exact .inr ⟨by rw [h.2, hold]; rfl, .inl h.1⟩
  | some o =>
      refine .inl ⟨o, hold, by rw [h.2, hold]; rfl, ?_⟩
      rw [h.1.2, hold]
      rfl

theorem Kept.cleanable (h : s.Kept) : s.Cleanable := ⟨.inl h.1, fun _ => h.rollbackOk⟩

/-- While `.bak` is being replaced a rollback needs the kept file. -/
theorem Replacing.rollbackOk (h : s.Replacing) (hbk : s.disk.files .bk ≠ none) : s.RollbackOk := by
  cases hold : s.old with
  | none => exact absurd (by rw [h.1, hold]; rfl) hbk
  | some o =>
      refine .inl ⟨o, hold, by rw [h.1, hold]; rfl, ?_⟩
      rw [h.2, hold]
      rfl

variable {b o : StoredBackup} {n : Nat}

theorem Making.whole (hb : s.Making b) (hbak : s.disk.files .bak = some b.content)
    (hkey : s.disk.dbKey = s.disk.backupKey) :
    s.Whole := by
  refine .inr ⟨?_, ?_⟩
  · rw [hbak, hb.1]
    rfl
  · rw [← hkey, ← hb.2, hb.1]
    rfl

theorem BackupInv.key_of_plain (h : s.BackupInv) (henc : s.isEncrypt = false)
    (hkey : s.disk.backupKey = s.old.bind key) : s.disk.dbKey = s.disk.backupKey := by
  have hdb := h.dbKey
  rw [henc] at hdb
  have hnone : s.disk.dbKey = none := hdb
  rw [hnone, hkey]
  cases hold : s.old with
  | none => rfl
  | some o =>
      have ho := h.old o hold
      rw [henc] at ho
      exact Eq.symm ho

variable (hinv : s.BackupInv)

include hinv

theorem recoverable_of_keeping (ho : s.old = some o) (hold : s.disk.Holds s.old)
    (hbk : s.disk.files .bk = some (o.content.take n)) (hn : n ≤ o.content.length)
    (htmp : s.disk.files .tmp = none)
    (hsafe : ¬ (s.isEncrypt = true ∧ s.disk.dbKey ≠ s.disk.backupKey ∧ n < o.content.length)) :
    s.Recoverable := by
  refine recoverable_of_cleanable hinv ⟨.inl hold, ?_⟩ fun h => h.2.2 htmp
  intro htype
  rcases (getClearType_spec hinv.dbKey).1 htype with ⟨henc, -, hdiffer⟩ | ⟨-, hsome⟩
  · have hall : n = o.content.length := by
      by_contra hne
      exact hsafe ⟨henc, hdiffer, by omega⟩
    refine .inl ⟨o, ho, ?_, ?_⟩
    · rw [hbk, hall, List.take_length]
    · rw [hold.2, ho]
      rfl
  · exact absurd htmp hsome

theorem recoverable_of_saving (h : s.Replacing) (hb : s.Making b)
    (hbak : s.disk.files .bak = some (b.content.take n)) (hn : n ≤ b.content.length)
    (htorn : ¬ (s.isEncrypt = true ∧ s.disk.files .bk = none))
    (hsafe : ¬ (n < b.content.length ∧
      (s.disk.files .bk = none ∨ s.isEncrypt = true ∧ s.disk.dbKey = s.disk.backupKey))) :
    s.disk.files .tmp ≠ none → s.Recoverable := by
  intro htmp
  have hwhole : n = b.content.length → s.disk.dbKey = s.disk.backupKey → s.Whole := by
    intro hall hkey
    refine hb.whole ?_ hkey
    rw [hbak, hall, List.take_length]
  have hall : s.disk.files .bk = none ∨ s.isEncrypt = true ∧ s.disk.dbKey = s.disk.backupKey →
      n = b.content.length := by
    intro hcase
    by_contra hne
    exact hsafe ⟨by omega, hcase⟩
  rw [Recoverable]
  cases htype : getClearType s.disk with
  | rollback =>
      by_cases hbk : s.disk.files .bk = none
      · have henc : s.isEncrypt = false := by
          by_contra henc
          exact htorn ⟨by simpa using henc, hbk⟩
        exact .inr ⟨hbk, hwhole (hall (.inl hbk)) (hinv.key_of_plain henc h.2)⟩
      · exact h.rollbackOk hbk
  | cleanData =>
      rcases (getClearType_spec hinv.dbKey).2.1 htype with hsame | ⟨-, hnone⟩
      · exact hwhole (hall (.inr hsame)) hsame.2
      · exact absurd hnone htmp
  | doNothing =>
      obtain ⟨hbk, henc | hnone⟩ := (getClearType_spec hinv.dbKey).2.2 htype
      · exact absurd ⟨henc, hbk⟩ htorn
      · exact absurd hnone htmp

theorem recoverable_of_saveKey (h : s.Replacing) (hb : s.Making b)
    (htmp : s.disk.files .tmp = none) (hbak : s.disk.files .bak = some b.content)
    (htorn : ¬ (s.isEncrypt = true ∧ s.disk.files .bk = none)) : s.Recoverable := by
  have hplain : s.isEncrypt = false → s.Whole := fun henc =>
    hb.whole hbak (hinv.key_of_plain henc h.2)
  rw [Recoverable]
  cases htype : getClearType s.disk with
  | rollback =>
      rcases (getClearType_spec hinv.dbKey).1 htype with ⟨-, hbk, -⟩ | ⟨-, hsome⟩
      · exact h.rollbackOk hbk
      · exact absurd htmp hsome
  | cleanData =>
      rcases (getClearType_spec hinv.dbKey).2.1 htype with ⟨-, hsame⟩ | ⟨henc, -⟩
      · exact hb.whole hbak hsame
      · exact hplain henc
  | doNothing =>
      obtain ⟨hbk, -⟩ := (getClearType_spec hinv.dbKey).2.2 htype
      refine ⟨hplain ?_, hbk, htmp⟩
      by_contra henc
      exact htorn ⟨by simpa using henc, hbk⟩

theorem recoverable_of_intact (h : s.Intact) : s.Recoverable :=
  recoverable_of_cleanable hinv ⟨h.1, fun _ => .inr ⟨h.2.1, h.1⟩⟩ fun hsome => hsome.2.2 h.2.2

/-- Outside the three gaps `Init` puts right whatever a crash leaves. -/
theorem recoverable_of_stage (hstage : s.Stage s.todo) (hsafe : ¬ s.Torn) : s.Recoverable := by
  have hfirst : ¬ (s.isEncrypt = true ∧ s.disk.files .bk = none ∧ s.disk.files .tmp ≠ none) :=
    fun h => hsafe (.inl ⟨h.1, h.2.1, .inl h.2.2⟩)
  generalize htodo : s.todo = todo at hstage
  cases hstage with
  | idle h => exact recoverable_of_intact hinv h
  | begin hold hbk htmp b hb => exact recoverable_of_intact hinv ⟨.inl hold, hbk, htmp⟩
  | keeping o n ho hold hbk hn htmp b hb =>
      refine recoverable_of_keeping hinv ho hold hbk hn htmp fun h => hsafe (.inr (.inl ?_))
      refine ⟨n, _, htodo, h.1, h.2.1, ?_⟩
      rw [hold.1, ho]
      exact h.2.2
  | exporting h | exported h | save h =>
      exact recoverable_of_cleanable hinv h.cleanable hfirst
  | saving h b hb n htmp hbak hn =>
      have hsome : s.disk.files .tmp ≠ none := by simp [htmp]
      refine recoverable_of_saving hinv h hb hbak hn ?_ ?_ hsome
      · exact fun hbk => hfirst ⟨hbk.1, hbk.2, hsome⟩
      intro hcut
      refine hsafe (.inr (.inr ⟨n, _, htodo, ?_, hcut.2⟩))
      rw [htmp]
      exact hcut.1
  | saved h b hb htmp hbak =>
      have hsome : s.disk.files .tmp ≠ none := by simp [htmp]
      exact recoverable_of_saving hinv h hb (by rw [hbak, List.take_length]) (le_refl _)
        (fun hbk => hfirst ⟨hbk.1, hbk.2, hsome⟩) (fun hcut => absurd hcut.1 (lt_irrefl _)) hsome
  | saveKey h b hb htmp hbak =>
      refine recoverable_of_saveKey hinv h hb htmp hbak fun hbk => hsafe (.inl ?_)
      exact ⟨hbk.1, hbk.2, .inr (by rw [htodo]; rfl)⟩
  | init h => exact h
  | rollBack h htype => exact h
  | rolling o n ho hbk hkey hbak hn htype =>
      rw [Recoverable, htype]
      exact .inl ⟨o, ho, hbk, hkey⟩
  | clean h => exact recoverable_of_cleanable hinv h hfirst
  | cleanBk h htmp => exact recoverable_of_cleanable hinv h fun hsome => hsome.2.2 htmp

omit hinv

theorem BackupInv.next (h : s.BackupInv) (henc : s'.isEncrypt = s.isEncrypt)
    (hdb : s'.disk.dbKey = s.disk.dbKey) (hold : s'.old = s.old) (hnew : s'.new = s.new)
    (hup : s'.up = true) (hstage : s'.Stage s'.todo) : s'.BackupInv where
  dbKey := by rw [henc, hdb]; exact h.dbKey
  old := by rw [henc, hold]; exact h.old
  new := by rw [henc, hnew]; exact h.new
  down hdown := by rw [hup] at hdown; cases hdown
  running _ := hstage

theorem stage_keepData (hold : s.disk.Holds s.old) (htmp : s.disk.files .tmp = none)
    (hbk : s.disk.files .bk = none) (hb : s.Making b)
    (hstep : s.runCmd (.exporter :: .loadKey :: saveData) (.copyFile .bak .bk) = some s') :
    s'.Stage s'.todo := by
  rw [runCmd] at hstep
  cases ho : s.old with
  | none =>
      have hbak : s.disk.files .bak = none := by rw [hold.1, ho]; rfl
      rw [if_neg (by simp [isFileExist, hbak])] at hstep
      cases hstep
      exact .exporting ⟨hold, by rw [hbk, ho]; rfl⟩ b hb
  | some o =>
      have hbak : s.disk.files .bak = some o.content := by rw [hold.1, ho]; rfl
      rw [if_pos (by simp [isFileExist, hbak])] at hstep
      cases hstep
      refine .keeping o 0 ho ?_ rfl (Nat.zero_le _) htmp b hb
      exact (holds_write (by decide)).mpr hold

theorem stage_keeping (ho : s.old = some o) (hold : s.disk.Holds s.old)
    (hbk : s.disk.files .bk = some (o.content.take n)) (hn : n ≤ o.content.length)
    (htmp : s.disk.files .tmp = none) (hb : s.Making b)
    (hstep : s.runCmd (.exporter :: .loadKey :: saveData) (.copyRest .bak .bk n) = some s') :
    s'.Stage s'.todo := by
  have hbak : (s.disk.files .bak).getD [] = o.content := by rw [hold.1, ho]; rfl
  simp only [runCmd, hbak] at hstep
  split at hstep
  · rename_i hlt
    cases hstep
    refine .keeping o (n + 1) ho ?_ rfl hlt htmp b hb
    exact (holds_write (by decide)).mpr hold
  · cases hstep
    refine .exporting ⟨hold, ?_⟩ b hb
    have hall : n = o.content.length := by omega
    show s.disk.files .bk = s.old.map content
    rw [hbk, hall, List.take_length, ho]
    rfl

theorem stage_saving (h : s.Replacing) (hb : s.Making b) (htmp : s.disk.files .tmp = some b.content)
    (hbak : s.disk.files .bak = some (b.content.take n)) (hn : n ≤ b.content.length)
    (hstep : s.runCmd [.removeFile .tmp, .saveMeta, .removeFile .bk] (.copyRest .tmp .bak n) =
      some s') : s'.Stage s'.todo := by
  simp only [runCmd, htmp, Option.getD_some] at hstep
  split at hstep
  · rename_i hlt
    cases hstep
    refine .saving ?_ b ?_ (n + 1) ?_ ?_ hlt
    · exact h
    · exact hb
    · exact htmp
    · rfl
  · cases hstep
    have hall : n = b.content.length := by omega
    exact .saved h b hb htmp (by rw [hbak, hall, List.take_length])

theorem stage_saveMeta (hinv : s.BackupInv) (h : s.Replacing) (hb : s.Making b)
    (htmp : s.disk.files .tmp = none) (hbak : s.disk.files .bak = some b.content)
    (hstep : s.runCmd [.removeFile .bk] .saveMeta = some s') : s'.Stage s'.todo := by
  have hnever : ∀ t : BackupState, KeyOk t.isEncrypt t.disk.dbKey → t.disk.files .tmp = none →
      (t.isEncrypt = true → t.disk.dbKey = t.disk.backupKey) → getClearType t.disk ≠ .rollback := by
    intro t hkey hnone hsame htype
    rcases (getClearType_spec hkey).1 htype with ⟨henc, -, hdiffer⟩ | ⟨-, hsome⟩
    · exact hdiffer (hsame henc)
    · exact hsome hnone
  simp only [runCmd] at hstep
  split at hstep
  · cases hstep
    refine .cleanBk ⟨?_, fun htype => absurd htype (hnever _ hinv.dbKey htmp fun _ => rfl)⟩ htmp
    exact Making.whole (b := b) hb hbak rfl
  rename_i hempty
  cases hstep
  have hplain : s.isEncrypt = false := by
    by_contra henc
    have hkey := hinv.dbKey
    rw [Bool.not_eq_false] at henc
    rw [henc] at hkey
    obtain ⟨sKey, hne, hsome⟩ := hkey
    rw [hsome] at hempty
    exact hempty hne
  have hwhole : s.Whole := hb.whole hbak (hinv.key_of_plain hplain h.2)
  refine .cleanBk ⟨hwhole, fun htype => absurd htype (hnever _ hinv.dbKey htmp ?_)⟩ htmp
  intro henc
  exact absurd henc (by simp [hplain])

theorem stage_init (h : s.Recoverable)
    (hstep : s.runCmd [] .getClearType = some s') : s'.Stage s'.todo := by
  rw [Recoverable] at h
  simp only [runCmd] at hstep
  cases htype : getClearType s.disk with
  | rollback =>
      rw [htype] at hstep h
      cases hstep
      refine .rollBack ?_ htype
      rw [Recoverable, htype]
      exact h
  | cleanData =>
      rw [htype] at hstep h
      cases hstep
      refine .clean ⟨h, ?_⟩
      intro hroll
      rw [htype] at hroll
      cases hroll
  | doNothing =>
      rw [htype] at hstep h
      cases hstep
      exact .idle h

theorem stage_rollBackData (h : s.Recoverable) (htype : getClearType s.disk = .rollback)
    (hstep : s.runCmd cleanData (.copyFile .bk .bak) = some s') : s'.Stage s'.todo := by
  rw [Recoverable, htype] at h
  rw [runCmd] at hstep
  rcases h with ⟨o, ho, hbk, hkey⟩ | ⟨hbk, hwhole⟩
  · rw [if_pos (by simp [isFileExist, hbk])] at hstep
    cases hstep
    exact .rolling o 0 ho hbk hkey rfl (Nat.zero_le _) htype
  · rw [if_neg (by simp [isFileExist, hbk])] at hstep
    cases hstep
    exact .clean ⟨hwhole, fun _ => .inr ⟨hbk, hwhole⟩⟩

theorem stage_rolling (ho : s.old = some o) (hbk : s.disk.files .bk = some o.content)
    (hkey : s.disk.backupKey = o.key) (hbak : s.disk.files .bak = some (o.content.take n))
    (hn : n ≤ o.content.length) (htype : getClearType s.disk = .rollback)
    (hstep : s.runCmd cleanData (.copyRest .bk .bak n) = some s') : s'.Stage s'.todo := by
  simp only [runCmd, hbk, Option.getD_some] at hstep
  split at hstep
  · rename_i hlt
    cases hstep
    exact .rolling o (n + 1) ho hbk hkey rfl hlt htype
  cases hstep
  have hall : n = o.content.length := by omega
  refine .clean ⟨.inl ⟨?_, ?_⟩, fun _ => .inl ⟨o, ho, hbk, hkey⟩⟩
  · show s.disk.files .bak = s.old.map content
    rw [hbak, hall, List.take_length, ho]
    rfl
  · show s.disk.backupKey = s.old.bind key
    rw [hkey, ho]
    rfl

theorem stage_cleanTmp (hinv : s.BackupInv) (h : s.Cleanable)
    (hstep : s.runCmd [.removeFile .bk] (.removeFile .tmp) = some s') : s'.Stage s'.todo := by
  cases hstep
  have hwhole : Whole { s with disk := s.disk.write .tmp none, todo := [.removeFile .bk] } :=
    h.1.imp (holds_write (by decide)).mpr (holds_write (by decide)).mpr
  refine .cleanBk ⟨hwhole, ?_⟩ rfl
  intro htype
  have hkey : KeyOk s.isEncrypt (s.disk.write .tmp none).dbKey := hinv.dbKey
  rcases (getClearType_spec hkey).1 htype with ⟨henc, hbk, hdiffer⟩ | ⟨-, hsome⟩
  · rw [henc] at hkey
    have hbefore : getClearType s.disk = .rollback := by
      rw [getClearType_encrypted (show KeyOk true s.disk.dbKey from hkey)]
      exact (if_neg hbk).trans (if_neg hdiffer)
    rcases h.2 hbefore with ⟨o, ho, hcontent, hkey⟩ | ⟨hnone, -⟩
    · exact .inl ⟨o, ho, hcontent, hkey⟩
    · exact absurd hnone hbk
  · exact absurd rfl hsome

theorem stage_runCmd (hinv : s.BackupInv) {cmd : BackupCmd} {rest : List BackupCmd}
    (hstage : s.Stage (cmd :: rest)) (hstep : s.runCmd rest cmd = some s') : s'.Stage s'.todo := by
  cases hstage with
  | begin hold hbk htmp b hb => exact stage_keepData hold htmp hbk hb hstep
  | keeping o n ho hold hbk hn htmp b hb => exact stage_keeping ho hold hbk hn htmp hb hstep
  | exporting h b hb => cases hstep
  | exported h b hb htmp =>
      have hloaded : ¬ (s.isEncrypt && s.disk.dbKey.isNone) = true := by
        have hkey := hinv.dbKey
        cases henc : s.isEncrypt with
        | false => simp
        | true =>
            rw [henc] at hkey
            obtain ⟨sKey, -, hsome⟩ := hkey
            simp [hsome]
      rw [runCmd, if_neg hloaded] at hstep
      cases hstep
      exact .save h b hb htmp
  | save h b hb htmp =>
      rw [runCmd, if_pos (by simp [isFileExist, htmp])] at hstep
      cases hstep
      refine .saving ⟨?_, ?_⟩ b ?_ 0 ?_ ?_ (Nat.zero_le _)
      · exact h.2
      · exact h.1.2
      · exact hb
      · exact htmp
      · rfl
  | saving h b hb n htmp hbak hn => exact stage_saving h hb htmp hbak hn hstep
  | saved h b hb htmp hbak =>
      cases hstep
      exact .saveKey h b hb rfl hbak
  | saveKey h b hb htmp hbak => exact stage_saveMeta hinv h hb htmp hbak hstep
  | init h => exact stage_init h hstep
  | rollBack h htype => exact stage_rollBackData h htype hstep
  | rolling o n ho hbk hkey hbak hn htype => exact stage_rolling ho hbk hkey hbak hn htype hstep
  | clean h => exact stage_cleanTmp hinv h hstep
  | cleanBk h htmp =>
      cases hstep
      refine .idle ⟨?_, rfl, htmp⟩
      exact h.1.imp (holds_write (by decide)).mpr (holds_write (by decide)).mpr

theorem backupInv_start {isEncrypt : Bool} {dbKey : Option Bytes} {backup : Option StoredBackup}
    (hkey : KeyOk isEncrypt dbKey) (hbackup : ∀ b, backup = some b → KeyOk isEncrypt b.key) :
    (start isEncrypt dbKey backup).BackupInv where
  dbKey := hkey
  old := hbackup
  new := hbackup
  down := nofun
  running _ := .idle ⟨.inl ⟨rfl, rfl⟩, rfl, rfl⟩

theorem stored_of_holds {b : Option StoredBackup} (h : s.disk.Holds b) :
    s.stored = b := by
  rw [stored, h.1, h.2]
  cases b with
  | none => rfl
  | some b => rfl

theorem backupInv_doBackup (h : s.BackupInv) {content : Bytes}
    (hstep : s.step (.doBackup content) = some s') : s'.BackupInv := by
  simp only [step] at hstep
  split at hstep
  · rename_i hidle
    cases hstep
    have hstage := h.running hidle.1
    rw [hidle.2] at hstage
    cases hstage with
    | idle hintact =>
        obtain ⟨hwhole, hbk, htmp⟩ := hintact
        have hholds : s.disk.Holds s.stored := by
          rcases hwhole with hold | hnew
          · rw [stored_of_holds hold]
            exact hold
          · rw [stored_of_holds hnew]
            exact hnew
        have hkeyed : ∀ o, s.stored = some o → KeyOk s.isEncrypt o.key := by
          rcases hwhole with hold | hnew
          · rw [stored_of_holds hold]
            exact h.old
          · rw [stored_of_holds hnew]
            exact h.new
        refine ⟨h.dbKey, hkeyed, ?_, ?_, ?_⟩
        · rintro b ⟨⟩
          exact h.dbKey
        · intro hdown
          rw [hidle.1] at hdown
          cases hdown
        · intro _
          exact .begin hholds hbk htmp ⟨content, s.disk.dbKey⟩ ⟨rfl, rfl⟩
  · cases hstep

theorem runCmd_frame {cmd : BackupCmd} {rest : List BackupCmd}
    (hstep : s.runCmd rest cmd = some s') :
    s'.isEncrypt = s.isEncrypt ∧ s'.disk.dbKey = s.disk.dbKey ∧ s'.old = s.old ∧ s'.new = s.new ∧
      s'.up = s.up := by
  cases cmd with
  | copyFile | copyRest | loadKey | saveMeta | getClearType =>
      simp only [runCmd] at hstep
      split at hstep
      all_goals
        cases hstep
        exact ⟨rfl, rfl, rfl, rfl, rfl⟩
  | exporter => cases hstep
  | removeFile path =>
      cases hstep
      exact ⟨rfl, rfl, rfl, rfl, rfl⟩

variable (h : s.BackupInv)

include h

theorem backupInv_run (hstep : s.step .run = some s') : s'.BackupInv := by
  simp only [step] at hstep
  split at hstep
  · rename_i cmd rest hup htodo
    have hstage := h.running hup
    rw [htodo] at hstage
    obtain ⟨henc, hdb, hold, hnew, hstill⟩ := runCmd_frame hstep
    exact h.next henc hdb hold hnew (hstill.trans hup) (stage_runCmd h hstage hstep)
  · cases hstep

theorem backupInv_exporting {written : Bytes} (hstep : s.step (.exporting written) = some s') :
    s'.BackupInv := by
  simp only [step] at hstep
  split at hstep
  · rename_i rest hup htodo
    cases hstep
    have hstage := h.running hup
    rw [htodo] at hstage
    refine h.next rfl rfl rfl rfl hup ?_
    cases hstage with
    | exporting hkept b hb =>
        rw [htodo]
        refine .exporting ⟨?_, ?_⟩ b ?_
        · exact (holds_write (by decide)).mpr hkept.1
        · exact hkept.2
        · exact hb
  · cases hstep

theorem backupInv_exported {result : Bool} (hstep : s.step (.exported result) = some s') :
    s'.BackupInv := by
  simp only [step] at hstep
  split at hstep
  · rename_i rest hup htodo
    have hstage := h.running hup
    rw [htodo] at hstage
    cases hstage with
    | exporting hkept b hb =>
        cases result with
        | true =>
            cases hstep
            refine h.next rfl rfl rfl rfl hup ?_
            refine .exported ⟨?_, ?_⟩ b ?_ ?_
            · exact (holds_write (by decide)).mpr hkept.1
            · exact hkept.2
            · exact hb
            · show s.new.map content = some b.content
              rw [hb.1]
              rfl
        | false =>
            cases hstep
            refine h.next rfl rfl rfl rfl hup (.clean ?_)
            exact hkept.cleanable
  · cases hstep

theorem backupInv_rekey {sKey : Bytes} (hstep : s.step (.rekey sKey) = some s') : s'.BackupInv := by
  simp only [step] at hstep
  split at hstep
  · rename_i hcond
    obtain ⟨hup, htodo, henc, hne⟩ := hcond
    cases hstep
    have hstage := h.running hup
    refine ⟨?_, h.old, h.new, ?_, ?_⟩
    · show KeyOk s.isEncrypt (some sKey)
      rw [henc]
      exact ⟨sKey, hne, rfl⟩
    · intro hdown
      rw [hup] at hdown
      cases hdown
    · intro _
      rw [htodo] at hstage ⊢
      cases hstage with
      | idle hintact => exact .idle hintact
  · cases hstep

theorem backupInv_kill (hsafe : ¬ s.Torn) (hstep : s.step .kill = some s') : s'.BackupInv := by
  simp only [step] at hstep
  split at hstep
  · rename_i hup
    have hrecoverable := recoverable_of_stage h (h.running hup) hsafe
    cases hstep
    exact ⟨h.dbKey, h.old, h.new, fun _ => ⟨rfl, hrecoverable⟩, nofun⟩
  · cases hstep

theorem backupInv_restart (hstep : s.step .restart = some s') : s'.BackupInv := by
  simp only [step] at hstep
  split at hstep
  · cases hstep
  rename_i hdown
  cases hstep
  refine h.next rfl rfl rfl rfl rfl (.init ?_)
  exact (h.down (by simpa using hdown)).2

omit h

/-- The process is not killed in one of the three gaps. -/
def KilledOutsideGaps (s : BackupState) : BackupAction → Prop
  | .kill => ¬ s.Torn
  | _ => True

theorem backupInv_step (h : s.BackupInv) {a : BackupAction} (hguard : s.KilledOutsideGaps a)
    (hstep : backupMachine.step s a = some s') : s'.BackupInv := by
  cases a with
  | doBackup content => exact backupInv_doBackup h hstep
  | run => exact backupInv_run h hstep
  | exporting written => exact backupInv_exporting h hstep
  | exported result => exact backupInv_exported h hstep
  | rekey sKey => exact backupInv_rekey h hstep
  | kill => exact backupInv_kill h hguard hstep
  | restart => exact backupInv_restart h hstep

end BackupState

/-- Whenever the process is alive and neither `Init` nor `DoBackup` is running, the backup
file and the stored key are those of the backup before the last `DoBackup` or of the one it
made, and no side file is left. -/
theorem backup_survives_crashes (isEncrypt : Bool) (dbKey : Option Bytes)
    (backup : Option StoredBackup) (hkey : KeyOk isEncrypt dbKey)
    (hbackup : ∀ b, backup = some b → KeyOk isEncrypt b.key) (schedule : List BackupAction)
    (hguarded : backupMachine.Guarded BackupState.KilledOutsideGaps (.start isEncrypt dbKey backup)
      schedule) (s : BackupState)
    (hrun : backupMachine.exec (.start isEncrypt dbKey backup) schedule = some s)
    (hidle : s.up = true ∧ s.todo = []) : s.Intact := by
  have hinv := backupMachine.exec_guarded_invariant
    (fun _ _ _ h hguard hstep => BackupState.backupInv_step h hguard hstep)
    (BackupState.backupInv_start hkey hbackup) hguarded hrun
  have hstage := hinv.running hidle.1
  rw [hidle.2] at hstage
  cases hstage with
  | idle h => exact h

/-- An encrypted store with a new key is killed while `.tmp` is copied over the backup,
and once more in the rollback. -/
def killedWhileSaving : List BackupAction :=
  [.doBackup [3, 4], .run, .run, .run, .run, .exporting [3], .exported true, .run, .run, .run,
    .kill, .restart, .run, .run, .run, .kill, .restart, .run, .run, .run, .run, .run, .run, .run]

theorem backup_survives_two_crashes :
    ∃ s, backupMachine.exec (.start true (some [8]) (some ⟨[1, 2], some [7]⟩)) killedWhileSaving =
      some s ∧ s.up = true ∧ s.todo = [] ∧ s.Intact := by
  have hkey : KeyOk true (some [8]) := ⟨[8], nofun, rfl⟩
  have hbackup : ∀ b : StoredBackup, some ⟨[1, 2], some [7]⟩ = some b → KeyOk true b.key := by
    rintro b ⟨⟩
    exact ⟨[7], nofun, rfl⟩
  have hguarded : backupMachine.Guarded BackupState.KilledOutsideGaps
      (.start true (some [8]) (some ⟨[1, 2], some [7]⟩)) killedWhileSaving := by
    iterate 10 refine guarded_cons _ trivial rfl ?_
    refine guarded_cons _ ?_ rfl ?_
    · rintro (⟨-, hbk, -⟩ | ⟨n, rest, htodo, -⟩ | ⟨n, rest, -, -, hbk | ⟨-, hkey⟩⟩)
      · cases hbk
      · cases htodo
      · cases hbk
      · cases hkey
    iterate 4 refine guarded_cons _ trivial rfl ?_
    refine guarded_cons _ ?_ rfl ?_
    · rintro (⟨-, hbk, -⟩ | ⟨n, rest, htodo, -⟩ | ⟨n, rest, htodo, -⟩)
      · cases hbk
      · cases htodo
      · cases htodo
    iterate 8 refine guarded_cons _ trivial rfl ?_
    trivial
  exact ⟨_, rfl, rfl, rfl, backup_survives_crashes true (some [8]) _ hkey hbackup _ hguarded _ rfl
    ⟨rfl, rfl⟩⟩

/-- Where recovery fails: a first backup is cut while it is copied into place; so is a later
one of an encrypted store whose key has not changed; the old backup of an encrypted
store whose key has changed is cut while it is kept; and the first export of an
encrypted store is cut. -/
theorem crash_tears_backup :
    (∃ s, backupMachine.exec (.start false none none)
        [.doBackup [1, 2], .run, .exported true, .run, .run, .kill, .restart, .run, .run, .run,
          .run] = some s ∧ s.up = true ∧ s.todo = [] ∧ s.disk.files .bak = some [] ∧ ¬ s.Intact) ∧
    (∃ s, backupMachine.exec (.start true (some [7]) (some ⟨[1, 2], some [7]⟩))
        [.doBackup [3, 4], .run, .run, .run, .run, .exported true, .run, .run, .kill, .restart,
          .run, .run, .run] = some s ∧ s.up = true ∧ s.todo = [] ∧ s.disk.files .bak = some [] ∧
        ¬ s.Intact) ∧
    (∃ s, backupMachine.exec (.start true (some [8]) (some ⟨[1, 2], some [7]⟩))
        [.doBackup [3, 4], .run, .kill, .restart, .run, .run, .run, .run, .run] = some s ∧
        s.up = true ∧ s.todo = [] ∧ s.disk.files .bak = some [] ∧ ¬ s.Intact) ∧
    ∃ s, backupMachine.exec (.start true (some [7]) none)
        [.doBackup [1, 2], .run, .exporting [1], .kill, .restart, .run] = some s ∧
        s.up = true ∧ s.todo = [] ∧ s.disk.files .tmp = some [1] ∧ ¬ s.Intact := by
  refine ⟨⟨_, rfl, ?_⟩, ⟨_, rfl, ?_⟩, ⟨_, rfl, ?_⟩, ⟨_, rfl, ?_⟩⟩
  · decide
  · decide
  · decide
  · decide

end DataMgr.Backup
