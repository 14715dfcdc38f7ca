import DataMgr.Udmf.Preprocess

/-! # The passes over the uris

`HandleFileUris` goes over the data twice, for the file uris and for the html uris. A pass leaves
masks inside what was answered for their uri and inside the policy configured for their object.
-/

namespace DataMgr.Udmf

section

variable {readOnly : Bool} {readResults writeResults : List Bool}

/-- The bit that makes a mask negative as an `int32_t`. -/
def signFlag : Mask := 0x80000000

theorem toInt_nonneg_of_not_has_signFlag {mask : Mask} (h : ¬ Has mask signFlag) :
    0 ≤ mask.toInt := by
  have hmsb : mask.msb = false := by
    by_contra htrue
    apply h
    rw [has_iff_exists_bit]
    refine ⟨31, ?_, by decide⟩
    rw [Bool.not_eq_false, BitVec.msb_eq_getLsbD_last] at htrue
    exact htrue
  rw [BitVec.toInt_eq_msb_cond, hmsb]
  simp

theorem not_has_signFlag_answeredMask (readOnly canRead canWrite : Bool) :
    ¬ Has (answeredMask readOnly canRead canWrite) signFlag := by
  revert readOnly canRead canWrite
  decide

/-- No mask of the answers is negative as an `int32_t`. -/
def NonNegative (answers : Std.ExtTreeMap String Mask) : Prop :=
  ∀ (uri : String) (mask : Mask), answers[uri]? = some mask → ¬ Has mask signFlag

variable {answers : Std.ExtTreeMap String Mask}

theorem recordAnswers_some {uris : List String} {i : Nat} {known : Std.ExtTreeMap String Mask}
    (h : recordAnswers readOnly readResults writeResults uris i known = some answers)
    (hknown : NonNegative known) :
    NonNegative answers ∧ ∀ uri : String, uri ∈ known ∨ uri ∈ uris → uri ∈ answers := by
  induction uris generalizing i known with
  | nil =>
      cases h
      exact ⟨hknown, fun uri hmem => hmem.resolve_right List.not_mem_nil⟩
  | cons first uris ih =>
      unfold recordAnswers at h
      dsimp only at h
      split at h
      · cases h
      split at h
      · cases h
      have hinsert : NonNegative (known.insert first (answeredMask readOnly
          (readResults[i]?.getD false) (writeResults[i]?.getD false))) := by
        intro uri mask hmask
        rw [Std.ExtTreeMap.getElem?_insert] at hmask
        split at hmask
        · cases hmask
          exact not_has_signFlag_answeredMask _ _ _
        · exact hknown uri mask hmask
      obtain ⟨hmasks, hcover⟩ := ih h hinsert
      refine ⟨hmasks, ?_⟩
      intro uri hmem
      apply hcover
      rw [Std.ExtTreeMap.mem_insert]
      rcases hmem with hold | hnew
      · exact .inl (.inr hold)
      · rcases List.mem_cons.mp hnew with rfl | hlater
        · exact .inl (.inl Std.ReflCmp.compare_self)
        · exact .inr hlater

variable {env : PreprocessEnv}

theorem foldlM_recordAnswers_some {tokenId : Token} {batches : List (List String)}
    {known : Std.ExtTreeMap String Mask} (h : batches.foldlM (fun permissionUris batch =>
      recordAnswers readOnly (env.checkUriAuthorization batch grantReadUriPermission tokenId)
        (env.checkUriAuthorization batch grantWriteUriPermission tokenId) batch 0 permissionUris)
      known = some answers) (hknown : NonNegative known) :
    NonNegative answers ∧ ∀ uri : String, uri ∈ known ∨ uri ∈ batches.flatten → uri ∈ answers := by
  induction batches generalizing known with
  | nil =>
      cases h
      exact ⟨hknown, fun uri hmem => hmem.resolve_right List.not_mem_nil⟩
  | cons batch batches ih =>
      rw [List.foldlM_cons, Option.bind_eq_bind, Option.bind_eq_some_iff] at h
      obtain ⟨mid, hbatch, hrest⟩ := h
      obtain ⟨hmid, hcoverMid⟩ := recordAnswers_some hbatch hknown
      obtain ⟨hmasks, hcover⟩ := ih hrest hmid
      refine ⟨hmasks, ?_⟩
      intro uri hmem
      apply hcover
      rw [List.flatten_cons, List.mem_append] at hmem
      rcases hmem with hold | hnow | hlater
      · exact .inl (hcoverMid uri (.inl hold))
      · exact .inl (hcoverMid uri (.inr hnow))
      · exact .inr hlater

theorem mem_flatten_batches {α : Type} {size : Nat} {items : List α} {x : α} (hsize : 0 < size)
    (h : x ∈ items) : x ∈ (batches size items).flatten := by
  obtain ⟨i, hi, rfl⟩ := List.mem_iff_getElem.mp h
  have hsplit : i / size * size + i % size = i := Nat.div_add_mod' i size
  have hmod : i % size < size := Nat.mod_lt i hsize
  have hcount : i / size < (items.length + size - 1) / size := by
    rw [Nat.div_lt_iff_lt_mul hsize]
    have hmul : (items.length + size - 1) / size * size + (items.length + size - 1) % size =
      items.length + size - 1 := Nat.div_add_mod' _ size
    have hrest : (items.length + size - 1) % size < size := Nat.mod_lt _ hsize
    omega
  rw [List.mem_flatten]
  refine ⟨(items.drop (i / size * size)).take size,
    List.mem_map.mpr ⟨i / size, List.mem_range.mpr hcount, rfl⟩, ?_⟩
  rw [List.mem_iff_getElem?]
  refine ⟨i % size, ?_⟩
  rw [List.getElem?_take_of_lt hmod, List.getElem?_drop, hsplit, List.getElem?_eq_getElem hi]

theorem checkUriAuthorization_some {uris : List String} {tokenId : Token}
    (h : checkUriAuthorization env uris tokenId readOnly = some answers) :
    NonNegative answers ∧ ∀ uri ∈ uris, uri ∈ answers := by
  have hempty : NonNegative ∅ := by
    intro uri mask hmask
    simp at hmask
  obtain ⟨hmasks, hcover⟩ := foldlM_recordAnswers_some h hempty
  refine ⟨hmasks, ?_⟩
  intro uri hmem
  apply hcover
  exact .inr (mem_flatten_batches (by decide) hmem)

end

/-- The object's policy, if one is configured, lets the permission through. -/
def Allows (util : UriPermissionUtil) (properties : Option Properties) (obj : Option Object)
    (p : UriPermission) : Prop :=
  ∀ configured, configuredMask util properties obj = some configured → Has configured p.flag

/-- The original uri of a file object, as `GetValue` leaves it. -/
def Object.uri (obj : Object) : String := obj.oriUri.getD ""

structure Pass where
  permissionUris : Std.ExtTreeMap String Mask
  dfsUris : Std.ExtTreeMap String String

section

variable (env : PreprocessEnv) (properties : Option Properties) (pass : Pass)

def Pass.mask (obj : Object) (uri : String) (mask : Mask) : Mask :=
  match pass.permissionUris[uri]? with
  | none => mask
  | some available => (getAuthorizedUriPermissionMask env.util properties (some obj) available).2

def Pass.dfsUri (uri dfsUri : String) : String :=
  match pass.permissionUris[uri]? with
  | none => dfsUri
  | some _ => pass.dfsUris[uri]?.getD dfsUri

def fillRecord (record : UnifiedRecord) : UnifiedRecord :=
  fillFileEntry env properties pass.dfsUris pass.permissionUris
    (fillHtmlEntry env properties pass.dfsUris pass.permissionUris record)

theorem getAuthorizedUriPermissionMask_eq_zero {util : UriPermissionUtil} {obj : Option Object}
    {available mask : Mask}
    (h : getAuthorizedUriPermissionMask util properties obj available = (false, mask)) :
    mask = 0 := by
  unfold getAuthorizedUriPermissionMask at h
  dsimp only at h
  split at h
  · cases h
    rfl
  · rw [Prod.mk.injEq, decide_eq_false_iff_not, not_not] at h
    rw [← h.2, h.1]

theorem allows_congr {util : UriPermissionUtil} {obj obj' : Object}
    (h : obj'.uriAuthorizationPolicies = obj.uriAuthorizationPolicies) {p : UriPermission} :
    Allows util properties (some obj') p ↔ Allows util properties (some obj) p := by
  unfold Allows configuredMask recordPermissionMask
  simp only [Option.bind_some, h]

theorem Pass.mask_congr {obj obj' : Object}
    (h : obj'.uriAuthorizationPolicies = obj.uriAuthorizationPolicies) (uri : String)
    (mask : Mask) :
    pass.mask env properties obj' uri mask = pass.mask env properties obj uri mask := by
  unfold Pass.mask getAuthorizedUriPermissionMask configuredMask recordPermissionMask
  simp only [Option.bind_some, h]

theorem fillHtmlUri_eq (obj : Object) (uriInfo : UriInfo) :
    let filled := fillHtmlUri env properties pass.dfsUris pass.permissionUris obj uriInfo
    filled.authUri = uriInfo.authUri ∧
      filled.permissionMask =
        pass.mask env properties obj uriInfo.authUri uriInfo.permissionMask ∧
      filled.dfsUri = pass.dfsUri uriInfo.authUri uriInfo.dfsUri := by
  unfold fillHtmlUri Pass.mask Pass.dfsUri
  cases hanswer : pass.permissionUris[uriInfo.authUri]? with
  | none => exact ⟨rfl, rfl, rfl⟩
  | some available =>
      rcases hauthorized :
        getAuthorizedUriPermissionMask env.util properties (some obj) available with
        ⟨granted, mask⟩
      cases granted with
      | false =>
          obtain rfl := getAuthorizedUriPermissionMask_eq_zero properties hauthorized
          cases hdfs : pass.dfsUris[uriInfo.authUri]? <;> simp [hauthorized, hdfs]
      | true => cases hdfs : pass.dfsUris[uriInfo.authUri]? <;> simp [hauthorized, hdfs]

/-- What a pass leaves of a file object whose mask and distributed uri are set. -/
structure Filled (obj filled : Object) (mask : Mask) (remoteUri : String) : Prop where
  uniformDataType : filled.uniformDataType = obj.uniformDataType
  oriUri : filled.oriUri = obj.oriUri
  policies : filled.uriAuthorizationPolicies = obj.uriAuthorizationPolicies
  uriPermissionMask : filled.uriPermissionMask = some mask.toInt
  remoteUri : filled.remoteUri = some remoteUri

theorem fillFileObject_filled {obj : Object} {mask : Mask} {remoteUri : String}
    (hmask : obj.uriPermissionMask = some mask.toInt) (hremote : obj.remoteUri = some remoteUri) :
    Filled obj (fillFileObject env properties pass.dfsUris pass.permissionUris obj)
      (pass.mask env properties obj obj.uri mask) (pass.dfsUri obj.uri remoteUri) := by
  unfold fillFileObject Pass.mask Pass.dfsUri
  dsimp only
  rw [← Object.uri]
  cases hanswer : pass.permissionUris[obj.uri]? with
  | none => exact ⟨rfl, rfl, rfl, hmask, hremote⟩
  | some available =>
      rcases hauthorized :
        getAuthorizedUriPermissionMask env.util properties (some obj) available with
        ⟨granted, mask⟩
      simp only [hauthorized]
      cases granted with
      | false =>
          obtain rfl := getAuthorizedUriPermissionMask_eq_zero properties hauthorized
          cases pass.dfsUris[obj.uri]? with
          | none => exact ⟨rfl, rfl, rfl, rfl, hremote⟩
          | some dfsUri => exact ⟨rfl, rfl, rfl, rfl, rfl⟩
      | true =>
          cases pass.dfsUris[obj.uri]? with
          | none => exact ⟨rfl, rfl, rfl, rfl, hremote⟩
          | some dfsUri => exact ⟨rfl, rfl, rfl, rfl, rfl⟩

variable (record : UnifiedRecord)

theorem fillRecord_keeps :
    (fillRecord env properties pass record).htmlObject? = record.htmlObject? ∧
      (fillRecord env properties pass record).entries.isNone = record.entries.isNone := by
  have hhtml : (fillHtmlEntry env properties pass.dfsUris pass.permissionUris record).entries =
      record.entries := by
    unfold fillHtmlEntry
    split <;> rfl
  have hobject : (fillHtmlEntry env properties pass.dfsUris pass.permissionUris
      record).htmlObject? = record.htmlObject? := by
    unfold UnifiedRecord.htmlObject?
    rw [hhtml]
  unfold fillRecord fillFileEntry processFileType
  split
  · split
    · rw [htmlObject?_setFileObject, hobject, ← hhtml]
      exact ⟨rfl, by simp [UnifiedRecord.setFileObject]⟩
    · exact ⟨hobject, by rw [hhtml]⟩
  · exact ⟨hobject, by rw [hhtml]⟩

theorem fillRecord_uris :
    (fillRecord env properties pass record).uris =
      match record.htmlObject? with
      | some (some obj) =>
          record.uris.map (fillHtmlUri env properties pass.dfsUris pass.permissionUris obj)
      | _ => record.uris := by
  have hfile : ∀ record, (fillFileEntry env properties pass.dfsUris pass.permissionUris
      record).uris = record.uris := by
    intro record
    unfold fillFileEntry processFileType
    split
    · split <;> rfl
    · rfl
  rw [fillRecord, hfile]
  unfold fillHtmlEntry
  rcases record.htmlObject? with _ | _ | obj <;> rfl

theorem fillRecord_fileObject :
    (fillRecord env properties pass record).fileObject? = record.fileObject?.map fun obj =>
      if obj.uniformDataType = some generalFileUri then
        fillFileObject env properties pass.dfsUris pass.permissionUris obj
      else obj := by
  have hhtml : (fillHtmlEntry env properties pass.dfsUris pass.permissionUris
      record).fileObject? = record.fileObject? := by
    unfold fillHtmlEntry
    split <;> rfl
  unfold fillRecord fillFileEntry processFileType
  rw [hhtml]
  cases hobj : record.fileObject? with
  | none => exact hhtml.trans hobj
  | some obj =>
      dsimp only
      split
      · rename_i htype
        rw [fileObject?_setFileObject (hhtml.trans hobj), Option.map_some, if_pos htype]
      · rename_i htype
        rw [hhtml, hobj, Option.map_some, if_neg htype]

/-- A pass without an answer writes nothing. -/
theorem fillRecord_of_isEmpty (h : pass.permissionUris.isEmpty = true) :
    fillRecord env properties pass record = record := by
  have hnone : ∀ uri : String, pass.permissionUris[uri]? = none := by
    intro uri
    rw [Std.ExtTreeMap.isEmpty_iff.mp h]
    exact Std.ExtTreeMap.getElem?_empty
  have hhtml : fillHtmlEntry env properties pass.dfsUris pass.permissionUris record = record := by
    unfold fillHtmlEntry fillHtmlUri
    split
    · simp [hnone]
    · rfl
  have hself : ∀ obj, record.fileObject? = some obj → record.setFileObject obj = record := by
    intro obj hobj
    obtain ⟨_ | entries, uris⟩ := record
    · rfl
    · simp only [UnifiedRecord.fileObject?, Option.bind_some, Entries.fileObject?] at hobj
      split at hobj
      · rename_i hentry
        simp [UnifiedRecord.setFileObject, ← hobj, ← hentry]
      · cases hobj
  rw [fillRecord, hhtml]
  unfold fillFileEntry processFileType fillFileObject
  split
  · rename_i obj hobj
    simp [hnone, hself obj hobj]
  · rfl

end

section

variable (env : PreprocessEnv) (tokenId : Token) (record : UnifiedRecord)

theorem collectHtml_keeps :
    (collectHtml env tokenId record).1.entries = record.entries := by
  unfold collectHtml
  split <;> rfl

theorem collectHtml_objects :
    (collectHtml env tokenId record).1.htmlObject? = record.htmlObject? ∧
      (collectHtml env tokenId record).1.fileObject? = record.fileObject? := by
  unfold UnifiedRecord.htmlObject? UnifiedRecord.fileObject?
  rw [collectHtml_keeps]
  exact ⟨rfl, rfl⟩

theorem collectRecord_keeps :
    (collectRecord env tokenId record).1.htmlObject? = record.htmlObject? ∧
      (collectRecord env tokenId record).1.uris = (collectHtml env tokenId record).1.uris ∧
      (collectRecord env tokenId record).1.entries.isNone = record.entries.isNone := by
  unfold collectRecord collectFile
  dsimp only
  rw [← (collectHtml_objects env tokenId record).1, ← collectHtml_keeps env tokenId record]
  split
  · exact ⟨htmlObject?_setFileObject, rfl, by simp [UnifiedRecord.setFileObject]⟩
  · exact ⟨rfl, rfl, rfl⟩

theorem collectRecord_fileObject :
    (collectRecord env tokenId record).1.fileObject? =
      record.fileObject?.map Object.clearPermissions := by
  unfold collectRecord collectFile
  dsimp only
  have hfile := (collectHtml_objects env tokenId record).2
  cases hobj : record.fileObject? with
  | none => rw [hfile, hobj]; exact hfile.trans hobj
  | some obj =>
      rw [hfile, hobj]
      exact fileObject?_setFileObject (hfile.trans hobj)

end

section

variable (env : PreprocessEnv) (tokenId : Token) (data : UnifiedData)

def IsPass (uris : List String) (readOnly : Bool) (pass : Pass) : Prop :=
  checkUriAuthorization env uris tokenId readOnly = some pass.permissionUris ∧
    pass.dfsUris = knownDfsUris env tokenId uris

/-- The pass over the uris of file entries and the one over html uris. -/
structure Passes where
  first : Pass
  second : Pass
  isFirst : IsPass env tokenId (fileUris env tokenId data) false first
  isSecond : IsPass env tokenId (htmlUris env tokenId data) true second

variable {env tokenId data}

theorem mapRecords_eq_self {f : UnifiedRecord → UnifiedRecord} (h : ∀ record, f record = record) :
    data.mapRecords f = data := by
  have hid : Option.map f = id := by
    funext slot
    cases slot with
    | none => rfl
    | some record => exact congrArg some (h record)
  unfold UnifiedData.mapRecords
  rw [hid, List.map_id]

theorem readCheckUri_eOk {uris : List String} {readOnly : Bool} {after : UnifiedData} :
    readCheckUri env tokenId data uris readOnly = (.eOk, after) ↔
      ∃ pass, IsPass env tokenId uris readOnly pass ∧
        after = data.mapRecords (fillRecord env data.properties pass) := by
  have hself : ∀ pass : Pass, pass.permissionUris.isEmpty = true →
      data = data.mapRecords (fillRecord env data.properties pass) := fun pass hempty =>
    (mapRecords_eq_self (fillRecord_of_isEmpty env data.properties pass · hempty)).symm
  have hread : readCheckUri env tokenId data uris readOnly =
      (checkUriAuthorization env uris tokenId readOnly).elim (.eNoPermission, data) fun answers =>
        (.eOk, data.mapRecords
          (fillRecord env data.properties ⟨answers, knownDfsUris env tokenId uris⟩)) := by
    unfold readCheckUri
    split
    · rename_i hnil
      rw [List.isEmpty_iff.mp hnil]
      exact congrArg (Prod.mk _) (hself ⟨∅, _⟩ Std.ExtTreeMap.isEmpty_empty)
    · cases checkUriAuthorization env uris tokenId readOnly with
      | none => rfl
      | some answers =>
          dsimp only
          unfold fillUris
          by_cases hempty : answers.isEmpty = true
          · rw [if_pos hempty]
            exact congrArg (Prod.mk _) (hself ⟨answers, _⟩ hempty)
          · rw [if_neg hempty]
            rfl
  rw [hread]
  constructor
  · intro h
    cases hcheck : checkUriAuthorization env uris tokenId readOnly with
    | none => simp [hcheck] at h
    | some answers =>
        rw [hcheck] at h
        cases h
        exact ⟨⟨answers, knownDfsUris env tokenId uris⟩, ⟨hcheck, rfl⟩, rfl⟩
  · rintro ⟨⟨answers, dfsUris⟩, ⟨hcheck, hdfs⟩, rfl⟩
    obtain rfl : dfsUris = knownDfsUris env tokenId uris := hdfs
    rw [hcheck, Option.elim_some]

variable (passes : Passes env tokenId data)

namespace Passes

def fill (record : UnifiedRecord) : UnifiedRecord :=
  fillRecord env data.properties passes.second
    (fillRecord env data.properties passes.first (collectRecord env tokenId record).1)

def handled : UnifiedData := data.mapRecords passes.fill

def mask (obj : Object) (uri : String) (mask : Mask) : Mask :=
  passes.second.mask env data.properties obj uri
    (passes.first.mask env data.properties obj uri mask)

def dfsUri (uri dfsUri : String) : String :=
  passes.second.dfsUri uri (passes.first.dfsUri uri dfsUri)

def fillHtmlUri (obj : Object) (uriInfo : UriInfo) : UriInfo :=
  Udmf.fillHtmlUri env data.properties passes.second.dfsUris passes.second.permissionUris obj
    (Udmf.fillHtmlUri env data.properties passes.first.dfsUris passes.first.permissionUris obj
      uriInfo)

end Passes

variable {passes} {handled : UnifiedData}

theorem handleFileUris_eOk :
    handleFileUris env tokenId data = (.eOk, handled) ↔
      ∃ passes : Passes env tokenId data, handled = passes.handled := by
  have htwice : ∀ passes : Passes env tokenId data,
      ((clearedData env tokenId data).mapRecords
          (fillRecord env data.properties passes.first)).mapRecords
        (fillRecord env data.properties passes.second) = passes.handled := by
    intro passes
    unfold Passes.handled UnifiedData.mapRecords clearedData UnifiedData.mapRecords
    simp only [List.map_map, Option.map_comp_map]
    rfl
  unfold handleFileUris
  constructor
  · intro h
    split at h
    · rename_i filled hfilled
      obtain ⟨first, hfirst, rfl⟩ := readCheckUri_eOk.mp hfilled
      obtain ⟨second, hsecond, rfl⟩ := readCheckUri_eOk.mp h
      exact ⟨⟨first, second, hfirst, hsecond⟩, htwice ⟨first, second, hfirst, hsecond⟩⟩
    · rename_i hne _
      cases h
      exact absurd rfl hne
  · rintro ⟨passes, rfl⟩
    rw [readCheckUri_eOk.mpr ⟨passes.first, passes.isFirst, rfl⟩]
    exact readCheckUri_eOk.mpr ⟨passes.second, passes.isSecond, (htwice passes).symm⟩

variable {record : UnifiedRecord}

theorem fill_keeps :
    (passes.fill record).htmlObject? = record.htmlObject? ∧
      (passes.fill record).entries.isNone = record.entries.isNone := by
  unfold Passes.fill
  rw [(fillRecord_keeps _ _ _ _).1, (fillRecord_keeps _ _ _ _).1, (fillRecord_keeps _ _ _ _).2,
    (fillRecord_keeps _ _ _ _).2, (collectRecord_keeps _ _ _).1, (collectRecord_keeps _ _ _).2.2]
  exact ⟨rfl, rfl⟩

theorem fill_uris_null (h : ∀ obj, record.htmlObject? ≠ some (some obj)) :
    (passes.fill record).uris = (collectHtml env tokenId record).1.uris := by
  unfold Passes.fill
  rw [fillRecord_uris, fillRecord_uris, (fillRecord_keeps _ _ _ _).1, (collectRecord_keeps _ _ _).1,
    (collectRecord_keeps _ _ _).2.1]
  rcases hhtml : record.htmlObject? with _ | _ | obj
  · rfl
  · rfl
  · exact absurd hhtml (h obj)

theorem fill_uris {obj : Object} (h : record.htmlObject? = some (some obj)) :
    (passes.fill record).uris =
      (collectHtml env tokenId record).1.uris.map (passes.fillHtmlUri obj) := by
  unfold Passes.fill
  rw [fillRecord_uris, fillRecord_uris, (fillRecord_keeps _ _ _ _).1, (collectRecord_keeps _ _ _).1,
    (collectRecord_keeps _ _ _).2.1, h]
  exact List.map_map

variable (passes) in
theorem Passes.fillHtmlUri_eq (obj : Object) (uriInfo : UriInfo) :
    (passes.fillHtmlUri obj uriInfo).authUri = uriInfo.authUri ∧
      (passes.fillHtmlUri obj uriInfo).permissionMask =
        passes.mask obj uriInfo.authUri uriInfo.permissionMask ∧
      (passes.fillHtmlUri obj uriInfo).dfsUri = passes.dfsUri uriInfo.authUri uriInfo.dfsUri := by
  obtain ⟨hauth, hmask, hdfs⟩ := Udmf.fillHtmlUri_eq env data.properties passes.first obj uriInfo
  obtain ⟨hauth', hmask', hdfs'⟩ := Udmf.fillHtmlUri_eq env data.properties passes.second obj _
  unfold Passes.fillHtmlUri
  rw [hauth', hmask', hdfs', hauth, hmask, hdfs]
  exact ⟨rfl, rfl, rfl⟩

/-- The file object of a record after both passes. -/
theorem fill_fileObject {filled : Object} (h : (passes.fill record).fileObject? = some filled) :
    ∃ obj, record.fileObject? = some obj ∧
      (obj.uniformDataType = some generalFileUri →
        Filled obj filled (passes.mask obj obj.uri 0) (passes.dfsUri obj.uri "")) ∧
      (obj.uniformDataType ≠ some generalFileUri → filled = obj.clearPermissions) := by
  unfold Passes.fill at h
  rw [fillRecord_fileObject, fillRecord_fileObject, collectRecord_fileObject, Option.map_map,
    Option.map_map, Option.map_eq_some_iff] at h
  obtain ⟨obj, hobj, rfl⟩ := h
  refine ⟨obj, hobj, fun htype => ?_, fun htype => ?_⟩
  · have hclear : obj.clearPermissions.uniformDataType = some generalFileUri := htype
    have hfirst : Filled obj.clearPermissions _
        (passes.first.mask env data.properties obj obj.uri 0) _ :=
      fillFileObject_filled env data.properties passes.first rfl rfl
    have htype' := hfirst.uniformDataType.trans hclear
    have hsecond := fillFileObject_filled env data.properties passes.second
      hfirst.uriPermissionMask hfirst.remoteUri
    have huri : (fillFileObject env data.properties passes.first.dfsUris
        passes.first.permissionUris obj.clearPermissions).uri = obj.uri :=
      congrArg (Option.getD · "") hfirst.oriUri
    rw [huri, passes.second.mask_congr env data.properties hfirst.policies] at hsecond
    simp only [Function.comp_apply, if_pos hclear, if_pos htype']
    exact ⟨hsecond.uniformDataType.trans (htype'.trans htype.symm),
      hsecond.oriUri.trans hfirst.oriUri, hsecond.policies.trans hfirst.policies,
      hsecond.uriPermissionMask, hsecond.remoteUri⟩
  · have hclear : obj.clearPermissions.uniformDataType ≠ some generalFileUri := htype
    simp only [Function.comp_apply, if_neg hclear]

end

section

variable (env : PreprocessEnv) (tokenId : Token) (data : UnifiedData)

def Answered (uri : String) (p : UriPermission) : Prop :=
  ∃ (answers : Std.ExtTreeMap String Mask) (mask : Mask),
    (checkUriAuthorization env (fileUris env tokenId data) tokenId false = some answers ∨
      checkUriAuthorization env (htmlUris env tokenId data) tokenId true = some answers) ∧
    answers[uri]? = some mask ∧ Has mask p.flag

def IsDfsUri (uri dfsUri : String) : Prop :=
  (knownDfsUris env tokenId (fileUris env tokenId data))[uri]? = some dfsUri ∨
    (knownDfsUris env tokenId (htmlUris env tokenId data))[uri]? = some dfsUri

variable {env tokenId data} {obj : Object} {uri : String}

theorem Pass.has_mask (hutil : env.util.Normalizes) {pass : Pass} {properties : Option Properties}
    {mask flag : Mask} (h : Has (pass.mask env properties obj uri mask) flag) :
    (pass.permissionUris[uri]? = none ∧ Has mask flag) ∨
      ∃ available, pass.permissionUris[uri]? = some available ∧ Has available flag ∧
        ∀ configured, configuredMask env.util properties (some obj) = some configured →
          Has configured flag := by
  unfold Pass.mask at h
  split at h
  · rename_i hnone
    exact .inl ⟨hnone, h⟩
  · rename_i available hanswer
    obtain ⟨havailable, hconfigured⟩ := has_of_getAuthorizedUriPermissionMask hutil h
    exact .inr ⟨available, hanswer, havailable, hconfigured⟩

theorem Pass.dfsUri_eq (pass : Pass) (uri dfsUri : String) :
    pass.dfsUri uri dfsUri = dfsUri ∨
      pass.dfsUris[uri]? = some (pass.dfsUri uri dfsUri) := by
  unfold Pass.dfsUri
  split
  · exact .inl rfl
  · cases pass.dfsUris[uri]? with
    | none => exact .inl rfl
    | some found => exact .inr rfl

variable (passes : Passes env tokenId data)

theorem Passes.dfsUri_eq (uri dfsUri : String) :
    passes.dfsUri uri dfsUri = dfsUri ∨
      IsDfsUri env tokenId data uri (passes.dfsUri uri dfsUri) := by
  unfold Passes.dfsUri
  rcases passes.second.dfsUri_eq uri (passes.first.dfsUri uri dfsUri) with hsame | hfound
  · rw [hsame]
    exact (passes.first.dfsUri_eq uri dfsUri).imp_right fun hfound =>
      .inl (passes.isFirst.2 ▸ hfound)
  · exact .inr (.inr (passes.isSecond.2 ▸ hfound))

variable {passes} (hutil : env.util.Normalizes)

include hutil

theorem Passes.has_mask {mask : Mask} {p : UriPermission}
    (h : Has (passes.mask obj uri mask) p.flag) :
    (passes.first.permissionUris[uri]? = none ∧ Has mask p.flag) ∨
      (Answered env tokenId data uri p ∧ Allows env.util data.properties (some obj) p) := by
  rcases Pass.has_mask hutil h with ⟨-, hbefore⟩ | ⟨available, hanswer, havailable, hallows⟩
  · rcases Pass.has_mask hutil hbefore with hold | ⟨available, hanswer, havailable, hallows⟩
    · exact .inl hold
    · exact .inr ⟨⟨_, available, .inl passes.isFirst.1, hanswer, havailable⟩, hallows⟩
  · exact .inr ⟨⟨_, available, .inr passes.isSecond.1, hanswer, havailable⟩, hallows⟩

theorem Passes.mask_nonneg : 0 ≤ (passes.mask obj uri 0).toInt := by
  apply toInt_nonneg_of_not_has_signFlag
  intro hsign
  rcases Pass.has_mask hutil hsign with ⟨-, hbefore⟩ | ⟨available, hanswer, havailable, -⟩
  · rcases Pass.has_mask hutil hbefore with ⟨-, hzero⟩ | ⟨available, hanswer, havailable, -⟩
    · exact not_has_zero hzero
    · exact (checkUriAuthorization_some passes.isFirst.1).1 uri available hanswer havailable
  · exact (checkUriAuthorization_some passes.isSecond.1).1 uri available hanswer havailable

end

end DataMgr.Udmf
