import DataMgr.Udmf.UriPasses

/-! # No permission amplification

A grant is the union of the masks filed under its uri, and the passes leave these in bounds. The
html uris of a record whose html object is null are passed over: there the mask that a client has
put in is granted as it is.
-/

namespace DataMgr.Udmf

section

variable (env : PreprocessEnv) (isLocal : Bool) (mode : Int) (record : UnifiedRecord) (key : String)

/-- The masks of one record, by the uri under which they are granted. -/
def recordUris : Std.ExtTreeMap String Mask :=
  (processFileEntryAuthorization env record isLocal mode
    (processHtmlEntryAuthorization env record isLocal mode ∅)).2.2

def fileMask : Option Mask :=
  (processFileEntryAuthorization env record isLocal mode ∅).2.2[key]?

/-- What one html uri has for the key. -/
def uriMask (uriInfo : UriInfo) : Option Mask :=
  let mask := toPermissionMaskOfUri env.util uriInfo mode
  if (if isLocal then uriInfo.authUri else uriInfo.dfsUri) = key ∧ key ≠ "" ∧
      isHtmlImage env key = true ∧ mask ≠ 0 then some mask else none

def htmlMask : Option Mask :=
  if record.htmlObject?.isSome then record.uris.findSome? (uriMask env isLocal mode key) else none

/-- The record has a mask for the key that grants the permission. -/
def Contributes (p : UriPermission) : Prop :=
  record.entries.isNone = false ∧ key ≠ "" ∧
    ∃ mask, (recordUris env isLocal mode record)[key]? = some mask ∧ MaskGrants env.util mask p

variable {env isLocal mode record key} {strUris : Std.ExtTreeMap String Mask}

theorem getElem?_insertIfNew_or {uri : String} {mask : Mask} :
    (strUris.insertIfNew uri mask)[key]? =
      strUris[key]?.or (if uri = key then some mask else none) := by
  rw [Std.ExtTreeMap.getElem?_insertIfNew]
  by_cases hkey : uri = key
  · subst hkey
    rw [if_pos rfl]
    cases hold : strUris[uri]? with
    | none =>
        rw [if_pos ⟨Std.ReflCmp.compare_self,
          by simp [Std.ExtTreeMap.mem_iff_isSome_getElem?, hold]⟩]
        rfl
    | some old =>
        rw [if_neg fun hnew => hnew.2 (by simp [Std.ExtTreeMap.mem_iff_isSome_getElem?, hold])]
        rfl
  · rw [if_neg hkey, Option.or_none, if_neg]
    exact fun hnew => hkey (Std.LawfulEqCmp.eq_of_compare hnew.1)

theorem getElem?_authorizeHtmlUri (uriInfo : UriInfo) :
    (authorizeHtmlUri env isLocal mode strUris uriInfo)[key]? =
      strUris[key]?.or (uriMask env isLocal mode key uriInfo) := by
  unfold authorizeHtmlUri uriMask
  dsimp only
  generalize (if isLocal then uriInfo.authUri else uriInfo.dfsUri) = uriStr
  by_cases hzero : toPermissionMaskOfUri env.util uriInfo mode = 0
  · simp [hzero]
  rw [if_neg hzero]
  by_cases hempty : uriStr = ""
  · subst hempty
    rw [if_pos (by rfl), if_neg (fun h => h.2.1 h.1.symm), Option.or_none]
  rw [if_neg (by simpa [String.isEmpty_iff] using hempty)]
  by_cases himage : isHtmlImage env uriStr = true
  · rw [if_pos himage, getElem?_insertIfNew_or]
    congr 1
    refine if_congr ⟨?_, fun h => h.1⟩ rfl rfl
    rintro rfl
    exact ⟨rfl, hempty, himage, hzero⟩
  · rw [if_neg himage, if_neg (by rintro ⟨rfl, -, h, -⟩; exact himage h), Option.or_none]

theorem getElem?_processHtmlEntryAuthorization :
    (processHtmlEntryAuthorization env record isLocal mode ∅)[key]? =
      htmlMask env isLocal mode record key := by
  have hfold : ∀ (uris : List UriInfo) (strUris : Std.ExtTreeMap String Mask),
      (uris.foldl (authorizeHtmlUri env isLocal mode) strUris)[key]? =
        strUris[key]?.or (uris.findSome? (uriMask env isLocal mode key)) := by
    intro uris
    induction uris with
    | nil => intro strUris; simp
    | cons uriInfo uris ih =>
        intro strUris
        rw [List.foldl_cons, ih, getElem?_authorizeHtmlUri, Option.or_assoc, List.findSome?_cons]
        cases uriMask env isLocal mode key uriInfo <;> rfl
  unfold processHtmlEntryAuthorization htmlMask
  cases record.htmlObject? with
  | none => exact Std.ExtTreeMap.getElem?_empty
  | some obj =>
      rw [hfold, Std.ExtTreeMap.getElem?_empty]
      rfl

theorem authorizeFileObject_from (obj : Object) :
    (authorizeFileObject env obj isLocal mode strUris).2.1 =
        (authorizeFileObject env obj isLocal mode ∅).2.1 ∧
      ∀ key : String, (authorizeFileObject env obj isLocal mode strUris).2.2[key]? =
        strUris[key]?.or (authorizeFileObject env obj isLocal mode ∅).2.2[key]? := by
  unfold authorizeFileObject
  dsimp only
  split
  · simp
  split
  · simp
  split
  · simp
  split
  · simp
  · simp [getElem?_insertIfNew_or]

theorem processFileEntryAuthorization_from :
    (processFileEntryAuthorization env record isLocal mode strUris).2.1 =
        (processFileEntryAuthorization env record isLocal mode ∅).2.1 ∧
      ∀ key, (processFileEntryAuthorization env record isLocal mode strUris).2.2[key]? =
        strUris[key]?.or (fileMask env isLocal mode record key) := by
  unfold fileMask processFileEntryAuthorization
  cases record.fileObject? with
  | none => simp
  | some obj =>
      dsimp only
      split
      · exact authorizeFileObject_from obj
      · simp

/-- An html uri comes before the file object. -/
theorem getElem?_recordUris :
    (recordUris env isLocal mode record)[key]? =
      (htmlMask env isLocal mode record key).or (fileMask env isLocal mode record key) := by
  rw [recordUris, processFileEntryAuthorization_from.2 key, getElem?_processHtmlEntryAuthorization]

variable (env isLocal mode record) in
def RecordFails : Prop :=
  record.entries.isNone = false ∧
    (processFileEntryAuthorization env record isLocal mode ∅).2.1 = true

variable (isLocal mode) in
theorem authorizeRecords_spec (hutil : env.util.Normalizes)
    (records : List (Option UnifiedRecord)) (granted : Std.ExtTreeMap String Mask) :
    ((authorizeRecords env isLocal mode records granted).1 = true ↔
      ∃ record, some record ∈ records ∧ RecordFails env isLocal mode record) ∧
    ((authorizeRecords env isLocal mode records granted).1 = false → ∀ key p,
      (Grants (authorizeRecords env isLocal mode records granted).2.2 key p ↔
        Grants granted key p ∨
          ∃ record, some record ∈ records ∧ Contributes env isLocal mode record key p)) := by
  induction records generalizing granted with
  | nil => simp [authorizeRecords]
  | cons slot records ih =>
      cases slot with
      | none => simpa [authorizeRecords] using ih granted
      | some first =>
          unfold authorizeRecords
          dsimp only
          rw [processFileEntryAuthorization_from.1]
          by_cases hentries : first.entries.isNone = true
          · rw [if_pos hentries]
            have hfails : ¬ RecordFails env isLocal mode first := by simp [RecordFails, hentries]
            have hnone : ∀ key p, ¬ Contributes env isLocal mode first key p := by
              simp [Contributes, hentries]
            simpa only [List.mem_cons, Option.some.injEq, or_and_right, exists_or, exists_eq_left,
              hfails, hnone, false_or] using ih granted
          rw [if_neg hentries]
          have hthere := Bool.eq_false_iff.mpr hentries
          by_cases herror : (processFileEntryAuthorization env first isLocal mode ∅).2.1 = true
          · rw [if_pos herror]
            exact ⟨iff_of_true rfl ⟨first, List.mem_cons_self, hthere, herror⟩, nofun⟩
          rw [if_neg herror]
          obtain ⟨hfails, hgrants⟩ := ih (appendGrantUriPermission env.util
            (recordUris env isLocal mode first) granted)
          refine ⟨hfails.trans ?_, fun hok key p => (hgrants hok key p).trans ?_⟩
          · simp [RecordFails, herror]
          · rw [grants_appendGrantUriPermission hutil, or_assoc]
            simp only [List.mem_cons, Option.some.injEq, or_and_right, exists_or, exists_eq_left,
              Contributes, hthere, true_and]

/-- What `ProcessCrossDeviceData` goes on with: nothing after an error. -/
def fileGrants (env : PreprocessEnv) (data : UnifiedData) (isLocal : Bool) :
    Std.ExtTreeMap String Mask :=
  let (hasError, _, uriPermissions) := processFileAuthorization env data isLocal
  if hasError then ∅ else uriPermissions

variable (env isLocal) in
def HasError (data : UnifiedData) : Prop :=
  ∃ record, some record ∈ data.records ∧
    RecordFails env isLocal (getPermissionPolicyMode data.runtime) record

theorem grants_fileGrants (hutil : env.util.Normalizes) {data : UnifiedData} {p : UriPermission} :
    Grants (fileGrants env data isLocal) key p ↔ ¬ HasError env isLocal data ∧
      ∃ record, some record ∈ data.records ∧
        Contributes env isLocal (getPermissionPolicyMode data.runtime) record key p := by
  obtain ⟨hfails, hgrants⟩ := authorizeRecords_spec isLocal (getPermissionPolicyMode data.runtime)
    hutil data.records ∅
  unfold fileGrants processFileAuthorization HasError
  rw [← hfails]
  dsimp only
  cases herror : (authorizeRecords env isLocal (getPermissionPolicyMode data.runtime) data.records
      ∅).1 with
  | true => simp [not_grants_empty]
  | false => simpa [not_grants_empty] using hgrants herror key p

variable (env isLocal mode) in
theorem validateFileEntry_keeps (obj : Object) :
    toPermissionMask env.util (validateFileEntry env obj isLocal).1 mode =
        toPermissionMask env.util obj mode ∧
      (validateFileEntry env obj isLocal).1.remoteUri = obj.remoteUri ∧
      (isLocal = true → (validateFileEntry env obj isLocal).1.oriUri = obj.oriUri) := by
  unfold validateFileEntry
  dsimp only
  split
  · exact ⟨rfl, rfl, fun _ => rfl⟩
  split
  · exact ⟨rfl, rfl, fun _ => rfl⟩
  split
  · exact ⟨rfl, rfl, fun _ => rfl⟩
  split
  · exact ⟨rfl, rfl, fun _ => rfl⟩
  rename_i hremote
  split
  · exact ⟨rfl, rfl, fun _ => rfl⟩
  split
  · exact ⟨rfl, rfl, fun hlocal => absurd hlocal hremote⟩
  · exact ⟨rfl, rfl, fun hlocal => absurd hlocal hremote⟩

theorem fileMask_some {mask : Mask} (h : fileMask env isLocal mode record key = some mask) :
    ∃ obj, record.fileObject? = some obj ∧ obj.uniformDataType = some generalFileUri ∧
      (if isLocal then obj.oriUri else obj.remoteUri) = some key ∧
        toPermissionMask env.util obj mode = mask := by
  unfold fileMask processFileEntryAuthorization at h
  split at h
  · rename_i obj hobj
    split at h
    · rename_i htype
      obtain ⟨hmask, hremote, hori⟩ := validateFileEntry_keeps env isLocal mode obj
      refine ⟨obj, hobj, htype, ?_⟩
      unfold authorizeFileObject at h
      dsimp only at h
      split at h
      · simp at h
      split at h
      · simp at h
      rename_i uriStr huri
      split at h
      · simp at h
      split at h
      · simp at h
      rw [getElem?_insertIfNew_or, Std.ExtTreeMap.getElem?_empty, Option.none_or] at h
      split at h
      · rename_i heq
        cases h
        rw [← heq, ← huri]
        refine ⟨?_, hmask.symm⟩
        cases isLocal with
        | true => exact (hori rfl).symm
        | false => exact hremote.symm
      · cases h
    · simp at h
  · simp at h

end

def FileUri (data : UnifiedData) (uri : String) : Prop :=
  ∃ record, some record ∈ data.records ∧ record.fileObject?.map Object.uri = some uri

/-- The records that carry a uri, by their object: a file object with the uri, or the
html object of a record with the uri among its html uris. -/
def Carries (data : UnifiedData) (uri : String) (obj : Option Object) : Prop :=
  ∃ record, some record ∈ data.records ∧
    ((record.fileObject? = obj ∧ obj.map Object.uri = some uri) ∨
      (record.htmlObject? = some obj ∧ ∃ uriInfo ∈ record.uris, uriInfo.authUri = uri))

section

variable (env : PreprocessEnv) (tokenId : Token) (data handled : UnifiedData)

/-- The permission was answered for the uri, and a record that carries the uri allows it. -/
def InBounds (uri : String) (p : UriPermission) : Prop :=
  Answered env tokenId data uri p ∧
    ∃ obj, Carries handled uri obj ∧ Allows env.util data.properties obj p

/-- Where the html object of a record is null, the first of its uris that is the uri of a file
entry and has a mask does not grant more than the bounds of that uri. -/
def NullHtmlBounded : Prop :=
  ∀ record, some record ∈ data.records → record.htmlObject? = some none →
    ∀ uri, FileUri data uri → uri ≠ "" → isHtmlImage env uri = true → ∀ uriInfo,
      (collectHtml env tokenId record).1.uris.find? (fun uriInfo => uriInfo.authUri = uri ∧
        env.util.normalizeMask uriInfo.permissionMask ≠ 0) = some uriInfo →
      ∀ p, MaskGrants env.util (env.util.normalizeMask uriInfo.permissionMask) p →
        InBounds env tokenId data handled uri p

/-- The uris of html records leave the parser without a mask and without a distributed uri. -/
def FreshHtmlUris : Prop :=
  ∀ record, some record ∈ data.records → ∀ obj, record.htmlObject? = some obj →
    ∀ uriInfo ∈ env.uriFromHtmlRecord obj record.uris,
      uriInfo.permissionMask = 0 ∧ uriInfo.dfsUri = ""

/-- Different uris of the data have different distributed uris. -/
def DistinctDfsUris : Prop :=
  ∀ uri uri' dfsUri, IsDfsUri env tokenId data uri dfsUri → IsDfsUri env tokenId data uri' dfsUri →
    uri = uri'

variable {env tokenId data handled} {passes : Passes env tokenId data} {record : UnifiedRecord}
  {uri : String}

theorem isHtmlImage_valid (h : isHtmlImage env uri = true) :
    (validateUriScheme (env.uri uri)).1 = true := by
  unfold isHtmlImage at h
  dsimp only at h
  split at h
  · cases h
  rename_i hauthority
  split at h
  · cases h
  rename_i hscheme
  simp only [Bool.or_eq_true, decide_eq_true_eq, not_or, not_not] at hscheme
  unfold validateUriScheme
  dsimp only
  have hnonempty : fileScheme.isEmpty = false := by decide
  simp only [hscheme.1, hnonempty, ne_eq, not_true_eq_false, decide_false, Bool.and_false,
    Bool.false_eq_true, if_false, Bool.false_or, if_neg hauthority]

theorem mem_fileUris (hfile : FileUri data uri)
    (hvalid : (validateUriScheme (env.uri uri)).1 = true) :
    uri ∈ fileUris env tokenId data := by
  obtain ⟨record, hrecord, huri⟩ := hfile
  obtain ⟨obj, hobj, rfl⟩ := Option.map_eq_some_iff.mp huri
  unfold fileUris
  rw [List.mem_flatMap]
  refine ⟨record, List.reduceOption_mem_iff.mpr hrecord, ?_⟩
  unfold collectRecord collectFile
  dsimp only
  rw [(collectHtml_objects env tokenId record).2, hobj]
  dsimp only
  rw [← Object.uri, hvalid]
  exact List.mem_singleton.mpr rfl

theorem findSome?_uriMask {mode : Int} (hmode : permissionPolicyModeMask ≤ mode) (hne : uri ≠ "")
    (himage : isHtmlImage env uri = true) (uris : List UriInfo) :
    uris.findSome? (uriMask env true mode uri) =
      (uris.find? fun uriInfo => uriInfo.authUri = uri ∧
        env.util.normalizeMask uriInfo.permissionMask ≠ 0).map fun uriInfo =>
          env.util.normalizeMask uriInfo.permissionMask := by
  induction uris with
  | nil => rfl
  | cons uriInfo uris ih =>
      rw [List.findSome?_cons, List.find?_cons, ih]
      by_cases hfound : uriInfo.authUri = uri ∧ env.util.normalizeMask uriInfo.permissionMask ≠ 0
      · have hsome : uriMask env true mode uri uriInfo =
            some (env.util.normalizeMask uriInfo.permissionMask) := by
          simp only [uriMask, toPermissionMaskOfUri, ge_iff_le, hmode, if_true]
          exact if_pos ⟨hfound.1, hne, himage, hfound.2⟩
        rw [hsome, decide_eq_true hfound]
        rfl
      · have hnone : uriMask env true mode uri uriInfo = none := by
          simp only [uriMask, toPermissionMaskOfUri, ge_iff_le, hmode, if_true]
          exact if_neg fun h => hfound ⟨h.1, h.2.2.2⟩
        rw [hnone, decide_eq_false hfound]

theorem htmlMask_null {mode : Int} (hmode : permissionPolicyModeMask ≤ mode)
    (hnull : record.htmlObject? = some none) (hne : uri ≠ "")
    (himage : isHtmlImage env uri = true) :
    htmlMask env true mode (passes.fill record) uri =
      ((collectHtml env tokenId record).1.uris.find? fun uriInfo => uriInfo.authUri = uri ∧
        env.util.normalizeMask uriInfo.permissionMask ≠ 0).map fun uriInfo =>
          env.util.normalizeMask uriInfo.permissionMask := by
  have huris : (passes.fill record).uris = (collectHtml env tokenId record).1.uris := by
    refine fill_uris_null fun obj hsome => ?_
    rw [hnull] at hsome
    cases hsome
  have hsome : (passes.fill record).htmlObject?.isSome = true := by
    rw [fill_keeps.1, hnull]
    rfl
  rw [htmlMask, if_pos hsome, huris, findSome?_uriMask hmode hne himage]

theorem htmlMask_some {isLocal : Bool} {mode : Int} {mask : Mask}
    (h : htmlMask env isLocal mode record uri = some mask) :
    ∃ obj, record.htmlObject? = some obj ∧ ∃ uriInfo ∈ record.uris,
      (if isLocal then uriInfo.authUri else uriInfo.dfsUri) = uri ∧ isHtmlImage env uri = true ∧
        toPermissionMaskOfUri env.util uriInfo mode = mask := by
  unfold htmlMask at h
  split at h
  · rename_i hsome
    obtain ⟨obj, hobj⟩ := Option.isSome_iff_exists.mp hsome
    obtain ⟨uriInfo, hmem, hmask⟩ := List.exists_of_findSome?_eq_some h
    obtain ⟨hkey, heq⟩ := Option.ite_none_right_eq_some.mp hmask
    exact ⟨obj, hobj, uriInfo, hmem, hkey.1, hkey.2.2.1, Option.some.inj heq⟩
  · cases h

variable {mode : Int} {mask : Mask} {p : UriPermission} (hutil : env.util.Normalizes)
  (hmode : permissionPolicyModeMask ≤ mode)

include hutil hmode in
theorem Has.of_toPermissionMaskOfUri {uriInfo : UriInfo}
    (h : Has (toPermissionMaskOfUri env.util uriInfo mode) p.flag) :
    Has uriInfo.permissionMask p.flag := by
  unfold toPermissionMaskOfUri at h
  rw [if_pos hmode] at h
  exact Has.of_normalizeMask hutil h

variable (passes) in
/-- An image that is the uri of a file entry is among the answers of the first pass. -/
theorem answered_of_image (hfile : FileUri data uri) (himage : isHtmlImage env uri = true) :
    passes.first.permissionUris[uri]? ≠ none := by
  have hmem := (checkUriAuthorization_some passes.isFirst.1).2 uri
    (mem_fileUris hfile (isHtmlImage_valid himage))
  rw [Std.ExtTreeMap.mem_iff_isSome_getElem?] at hmem
  intro hnone
  rw [hnone] at hmem
  cases hmem

include hutil hmode

/-- What a file object grants is bounded, under its original or its distributed uri. -/
theorem fileMask_bounded {isLocal : Bool} {key : String}
    (h : fileMask env isLocal mode (passes.fill record) key = some mask) (hhas : Has mask p.flag) :
    ∃ filled, (passes.fill record).fileObject? = some filled ∧
      (if isLocal then filled.oriUri else filled.remoteUri) = some key ∧
      Answered env tokenId data filled.uri p ∧ Allows env.util data.properties (some filled) p := by
  obtain ⟨filled, hfilled, htype, hkey, rfl⟩ := fileMask_some h
  obtain ⟨obj, hobj, hgeneral, hother⟩ := fill_fileObject hfilled
  have hobjType : obj.uniformDataType = some generalFileUri := by
    by_contra hne
    rw [hother hne] at htype
    exact hne htype
  have hfill := hgeneral hobjType
  have huri : filled.uri = obj.uri := congrArg (Option.getD · "") hfill.oriUri
  have hmask : Has (passes.mask obj obj.uri 0) p.flag := by
    apply Has.of_normalizeMask hutil
    unfold toPermissionMask at hhas
    dsimp only at hhas
    rw [if_pos hmode, hfill.uriPermissionMask] at hhas
    dsimp only at hhas
    rw [if_pos (Passes.mask_nonneg hutil), BitVec.ofInt_toInt] at hhas
    exact hhas
  refine ⟨filled, hfilled, hkey, ?_⟩
  rw [huri, allows_congr data.properties hfill.policies]
  exact (Passes.has_mask hutil hmask).resolve_left fun hzero => not_has_zero hzero.2

/-- On the device itself: only a null html object leaves the bounds open. -/
theorem inBounds_of_contributes (hnull : NullHtmlBounded env tokenId data passes.handled)
    (hfile : FileUri data uri) (hrecord : some record ∈ data.records)
    (h : Contributes env true mode (passes.fill record) uri p) :
    InBounds env tokenId data passes.handled uri p := by
  obtain ⟨-, hne, mask, hmask, hgrants⟩ := h
  have hhandled : some (passes.fill record) ∈ passes.handled.records :=
    mem_records_mapRecords.mpr ⟨record, hrecord, rfl⟩
  rw [getElem?_recordUris] at hmask
  rcases Option.or_eq_some_iff.mp hmask with hhtml | ⟨-, hfrom⟩
  · obtain ⟨obj, hobj, filled, hmem, hauth, himage, hfilledMask⟩ := htmlMask_some hhtml
    rw [fill_keeps.1] at hobj
    cases obj with
    | none =>
        rw [htmlMask_null hmode hobj hne himage] at hhtml
        obtain ⟨uriInfo, hfound, rfl⟩ := Option.map_eq_some_iff.mp hhtml
        exact hnull record hrecord hobj uri hfile hne himage uriInfo hfound p hgrants
    | some obj =>
        have hmem' := hmem
        rw [fill_uris hobj, List.mem_map] at hmem'
        obtain ⟨uriInfo, -, rfl⟩ := hmem'
        obtain ⟨hsame, hpasses, -⟩ := passes.fillHtmlUri_eq obj uriInfo
        have hhas := hgrants.has hutil
        rw [← hfilledMask] at hhas
        have hfrom := Has.of_toPermissionMaskOfUri hutil hmode hhas
        have hkey : uriInfo.authUri = uri := hsame.symm.trans hauth
        rw [hpasses, hkey] at hfrom
        obtain ⟨hanswered, hallows⟩ := (Passes.has_mask hutil hfrom).resolve_left
          fun hold => answered_of_image passes hfile himage hold.1
        exact ⟨hanswered, some obj, ⟨_, hhandled, .inr ⟨fill_keeps.1.trans hobj, _, hmem, hauth⟩⟩,
          hallows⟩
  · obtain ⟨filled, hfilled, hkey, hanswered, hallows⟩ :=
      fileMask_bounded hutil hmode hfrom (hgrants.has hutil)
    have huri : filled.uri = uri := congrArg (Option.getD · "") hkey
    rw [huri] at hanswered
    exact ⟨hanswered, some filled, ⟨_, hhandled, .inl ⟨hfilled, congrArg some huri⟩⟩, hallows⟩

omit hutil hmode in
theorem isDfsUri_remoteUri {filled : Object}
    (h : (passes.fill record).fileObject? = some filled) (hne : filled.remoteUri.getD "" ≠ "") :
    IsDfsUri env tokenId data filled.uri (filled.remoteUri.getD "") := by
  obtain ⟨obj, hobj, hgeneral, hother⟩ := fill_fileObject h
  by_cases htype : obj.uniformDataType = some generalFileUri
  · have hfill := hgeneral htype
    have huri : filled.uri = obj.uri := congrArg (Option.getD · "") hfill.oriUri
    rw [hfill.remoteUri, Option.getD_some] at hne ⊢
    rw [huri]
    exact (passes.dfsUri_eq _ "").resolve_left hne
  · rw [hother htype] at hne
    exact absurd rfl hne

omit hutil hmode in
theorem collectHtml_fresh (hfresh : FreshHtmlUris env data) (hrecord : some record ∈ data.records)
    {obj : Option Object} (hobj : record.htmlObject? = some obj) {uriInfo : UriInfo}
    (hmem : uriInfo ∈ (collectHtml env tokenId record).1.uris) :
    uriInfo.permissionMask = 0 ∧ uriInfo.dfsUri = "" := by
  unfold collectHtml at hmem
  rw [hobj] at hmem
  simp only [processHtmlRecord, List.map_map, List.mem_map, Function.comp_apply] at hmem
  obtain ⟨before, hbefore, rfl⟩ := hmem
  have hkeeps : (processHtmlUri env tokenId true before).1.permissionMask = before.permissionMask ∧
      (processHtmlUri env tokenId true before).1.dfsUri = before.dfsUri := by
    unfold processHtmlUri
    dsimp only
    split
    · split
      · exact ⟨rfl, rfl⟩
      · split <;> exact ⟨rfl, rfl⟩
    · exact ⟨rfl, rfl⟩
  rw [hkeeps.1, hkeeps.2]
  exact hfresh record hrecord obj hobj before hbefore

/-- On another device, under the distributed uri of a file entry. -/
theorem inBounds_of_contributes_remote (hfresh : FreshHtmlUris env data)
    (hdistinct : DistinctDfsUris env tokenId data) {entryRecord : UnifiedRecord} {entry : Object}
    (hentry : (passes.fill entryRecord).fileObject? = some entry)
    (hrecord : some record ∈ data.records)
    (h : Contributes env false mode (passes.fill record) (entry.remoteUri.getD "") p) :
    InBounds env tokenId data passes.handled entry.uri p := by
  obtain ⟨-, hne, mask, hmask, hgrants⟩ := h
  have hhas := hgrants.has hutil
  have hhandled : some (passes.fill record) ∈ passes.handled.records :=
    mem_records_mapRecords.mpr ⟨record, hrecord, rfl⟩
  have hdfs := isDfsUri_remoteUri hentry hne
  rw [getElem?_recordUris] at hmask
  rcases Option.or_eq_some_iff.mp hmask with hhtml | ⟨-, hfrom⟩
  · obtain ⟨obj, hobj, filled, hmem, hkey, -, rfl⟩ := htmlMask_some hhtml
    have hfrom := Has.of_toPermissionMaskOfUri hutil hmode hhas
    rw [fill_keeps.1] at hobj
    cases obj with
    | none =>
        rw [fill_uris_null (fun obj hsome => by rw [hobj] at hsome; cases hsome)] at hmem
        rw [(collectHtml_fresh hfresh hrecord hobj hmem).1] at hfrom
        exact absurd hfrom not_has_zero
    | some obj =>
        have hmem' := hmem
        rw [fill_uris hobj, List.mem_map] at hmem'
        obtain ⟨uriInfo, hbefore, rfl⟩ := hmem'
        obtain ⟨hsame, hpasses, hpassesDfs⟩ := passes.fillHtmlUri_eq obj uriInfo
        obtain ⟨hzero, hempty⟩ := collectHtml_fresh hfresh hrecord hobj hbefore
        rw [hpasses, hzero] at hfrom
        rw [hempty] at hpassesDfs
        have hauthDfs := passes.dfsUri_eq uriInfo.authUri ""
        rw [hpassesDfs.symm.trans hkey] at hauthDfs
        have hauth := hdistinct _ _ _ (hauthDfs.resolve_left hne) hdfs
        obtain ⟨hanswered, hallows⟩ := (Passes.has_mask hutil hfrom).resolve_left
          fun hold => not_has_zero hold.2
        rw [hauth] at hanswered
        exact ⟨hanswered, some obj, ⟨_, hhandled, .inr ⟨fill_keeps.1.trans hobj, _, hmem,
          hsame.trans hauth⟩⟩, hallows⟩
  · obtain ⟨filled, hfilled, hkey, hanswered, hallows⟩ := fileMask_bounded hutil hmode hfrom hhas
    have hremote : filled.remoteUri = some (entry.remoteUri.getD "") := hkey
    have hfilledDfs := isDfsUri_remoteUri hfilled (by rw [hremote]; exact hne)
    rw [hremote, Option.getD_some] at hfilledDfs
    have huri := hdistinct _ _ _ hfilledDfs hdfs
    rw [huri] at hanswered
    exact ⟨hanswered, some filled, ⟨_, hhandled, .inl ⟨hfilled, congrArg some huri⟩⟩, hallows⟩

end

def UriInfo.erasePreset (uriInfo : UriInfo) : UriInfo :=
  { uriInfo with permission := 0, permissionMask := 0 }

/-- The record without what a client has put into the permission fields of its file object. -/
def UnifiedRecord.eraseFilePresets (record : UnifiedRecord) : UnifiedRecord :=
  match record.fileObject? with
  | some obj =>
      record.setFileObject { obj with permissionPolicy := none, uriPermissionMask := none }
  | none => record

/-- The record without any permission that a client has put in. -/
def UnifiedRecord.erasePresets (record : UnifiedRecord) : UnifiedRecord :=
  { record.eraseFilePresets with uris := record.uris.map UriInfo.erasePreset }

def UnifiedData.eraseFilePresets (data : UnifiedData) : UnifiedData :=
  data.mapRecords UnifiedRecord.eraseFilePresets

def UnifiedData.erasePresets (data : UnifiedData) : UnifiedData :=
  data.mapRecords UnifiedRecord.erasePresets

/-- The parser leaves what a client has put into permission fields in these fields, if anywhere. -/
def PreprocessEnv.PresetBlind (env : PreprocessEnv) : Prop :=
  ∀ obj uris, (env.uriFromHtmlRecord obj (uris.map UriInfo.erasePreset)).map UriInfo.erasePreset =
    (env.uriFromHtmlRecord obj uris).map UriInfo.erasePreset

section

variable {env : PreprocessEnv} {tokenId : Token}

/-- The fields are cleared before anything looks at them. -/
theorem collectRecord_eraseFilePresets (record : UnifiedRecord) :
    collectRecord env tokenId record.eraseFilePresets = collectRecord env tokenId record := by
  unfold UnifiedRecord.eraseFilePresets
  split
  · rename_i obj hobj
    have hafter := (collectHtml_objects env tokenId record).2.trans hobj
    have hhtml : ∀ obj, collectHtml env tokenId (record.setFileObject obj) =
        ((collectHtml env tokenId record).1.setFileObject obj,
          (collectHtml env tokenId record).2) := by
      intro obj
      unfold collectHtml
      rw [htmlObject?_setFileObject]
      split <;> rfl
    unfold collectRecord
    rw [hhtml]
    unfold collectFile
    dsimp only
    rw [fileObject?_setFileObject hafter, hafter]
    unfold UnifiedRecord.setFileObject
    cases (collectHtml env tokenId record).1.entries <;> rfl
  · rfl

theorem handleFileUris_eraseFilePresets (data : UnifiedData) :
    handleFileUris env tokenId data.eraseFilePresets = handleFileUris env tokenId data := by
  have hcleared : clearedData env tokenId data.eraseFilePresets = clearedData env tokenId data := by
    unfold clearedData UnifiedData.eraseFilePresets UnifiedData.mapRecords
    simp only [List.map_map, Function.comp_def, Option.map_map, collectRecord_eraseFilePresets]
  have hfile : fileUris env tokenId data.eraseFilePresets = fileUris env tokenId data := by
    unfold fileUris UnifiedData.eraseFilePresets UnifiedData.mapRecords
    simp only [List.reduceOption_map, List.flatMap_map, collectRecord_eraseFilePresets]
  have hhtml : htmlUris env tokenId data.eraseFilePresets = htmlUris env tokenId data := by
    unfold htmlUris UnifiedData.eraseFilePresets UnifiedData.mapRecords
    simp only [List.reduceOption_map, List.flatMap_map, collectRecord_eraseFilePresets]
  unfold handleFileUris
  rw [hcleared, hfile, hhtml]

theorem erasePresets_keeps (record : UnifiedRecord) :
    record.erasePresets.htmlObject? = record.htmlObject? ∧
      record.erasePresets.entries.isNone = record.entries.isNone ∧
      record.erasePresets.fileObject?.map Object.clearPermissions =
        record.fileObject?.map Object.clearPermissions := by
  have hkeeps : record.eraseFilePresets.htmlObject? = record.htmlObject? ∧
      record.eraseFilePresets.entries.isNone = record.entries.isNone ∧
      record.eraseFilePresets.fileObject?.map Object.clearPermissions =
        record.fileObject?.map Object.clearPermissions := by
    unfold UnifiedRecord.eraseFilePresets
    split
    · rename_i obj hobj
      refine ⟨htmlObject?_setFileObject, by simp [UnifiedRecord.setFileObject], ?_⟩
      rw [fileObject?_setFileObject hobj, hobj]
      rfl
    · exact ⟨rfl, rfl, rfl⟩
  exact hkeeps

theorem map_congr_erasePreset {β : Type} {f : UriInfo → β}
    (hf : ∀ uriInfo, f uriInfo.erasePreset = f uriInfo)
    {uris uris' : List UriInfo}
    (h : uris.map UriInfo.erasePreset = uris'.map UriInfo.erasePreset) :
    uris.map f = uris'.map f := by
  have hmap : ∀ uris : List UriInfo, uris.map f = (uris.map UriInfo.erasePreset).map f := by
    intro uris
    rw [List.map_map]
    exact List.map_congr_left fun uriInfo _ => (hf uriInfo).symm
  rw [hmap, h, ← hmap]

theorem processHtmlUri_erasePreset (uriInfo : UriInfo) :
    (processHtmlUri env tokenId true uriInfo.erasePreset).1.authUri =
        (processHtmlUri env tokenId true uriInfo).1.authUri ∧
      (processHtmlUri env tokenId true uriInfo.erasePreset).2 =
        (processHtmlUri env tokenId true uriInfo).2 := by
  unfold processHtmlUri UriInfo.erasePreset
  dsimp only
  split
  · split
    · exact ⟨rfl, rfl⟩
    · split <;> exact ⟨rfl, rfl⟩
  · exact ⟨rfl, rfl⟩

theorem collectHtml_erasePresets (hblind : env.PresetBlind) (record : UnifiedRecord) :
    (collectHtml env tokenId record.erasePresets).1.uris.map UriInfo.authUri =
        (collectHtml env tokenId record).1.uris.map UriInfo.authUri ∧
      (collectHtml env tokenId record.erasePresets).2 = (collectHtml env tokenId record).2 := by
  unfold collectHtml
  rw [(erasePresets_keeps record).1]
  cases record.htmlObject? with
  | none => exact ⟨by simp [UnifiedRecord.erasePresets, UriInfo.erasePreset], rfl⟩
  | some obj =>
      have hparsed := hblind obj record.uris
      simp only [processHtmlRecord, List.map_map, List.flatMap_def]
      constructor
      · exact map_congr_erasePreset (fun uriInfo => (processHtmlUri_erasePreset uriInfo).1) hparsed
      · exact congrArg List.flatten
          (map_congr_erasePreset (fun uriInfo => (processHtmlUri_erasePreset uriInfo).2) hparsed)

theorem collectRecord_fileUris (record : UnifiedRecord) :
    (collectRecord env tokenId record).2.1 =
      (record.fileObject?.map Object.clearPermissions).elim [] fun obj =>
        if (validateUriScheme (env.uri obj.uri)).1 then [obj.uri] else [] := by
  unfold collectRecord collectFile
  dsimp only
  rw [(collectHtml_objects env tokenId record).2]
  cases record.fileObject? <;> rfl

variable {data : UnifiedData} {passes : Passes env tokenId data} {record record' : UnifiedRecord}

theorem fileUris_erasePresets :
    fileUris env tokenId data.erasePresets = fileUris env tokenId data := by
  unfold fileUris UnifiedData.erasePresets UnifiedData.mapRecords
  simp only [List.reduceOption_map, List.flatMap_map, collectRecord_fileUris,
    (erasePresets_keeps _).2.2]

theorem htmlUris_erasePresets (hblind : env.PresetBlind) :
    htmlUris env tokenId data.erasePresets = htmlUris env tokenId data := by
  have hrecord : ∀ record, (collectRecord env tokenId record).2.2 =
      (collectHtml env tokenId record).2 := fun _ => rfl
  unfold htmlUris UnifiedData.erasePresets UnifiedData.mapRecords
  simp only [List.reduceOption_map, List.flatMap_map, hrecord,
    (collectHtml_erasePresets hblind _).2]

variable {uri : String} {mode : Int} {p : UriPermission}

/-- All that a record with an html object has for the uri of a file entry is the mask of the
passes. -/
theorem htmlMask_html (hmode : permissionPolicyModeMask ≤ mode) {obj : Object}
    (hhtml : record.htmlObject? = some (some obj)) (hne : uri ≠ "")
    (himage : isHtmlImage env uri = true) (hasked : passes.first.permissionUris[uri]? ≠ none) :
    let mask := env.util.normalizeMask (passes.mask obj uri 0)
    htmlMask env true mode (passes.fill record) uri =
      if uri ∈ (collectHtml env tokenId record).1.uris.map UriInfo.authUri ∧ mask ≠ 0 then
        some mask
      else none := by
  intro mask
  have hsome : (passes.fill record).htmlObject?.isSome = true := by
    rw [fill_keeps.1, hhtml]
    rfl
  have hmask : ∀ before, passes.mask obj uri before = passes.mask obj uri 0 := by
    intro before
    unfold Passes.mask Pass.mask
    cases hanswer : passes.first.permissionUris[uri]? with
    | none => exact absurd hanswer hasked
    | some available => rfl
  have hfilled : ∀ filled ∈ (passes.fill record).uris,
      filled.authUri = uri → env.util.normalizeMask filled.permissionMask = mask := by
    intro filled hmem hauth
    rw [fill_uris hhtml, List.mem_map] at hmem
    obtain ⟨uriInfo, -, rfl⟩ := hmem
    obtain ⟨hsame, hpasses, -⟩ := passes.fillHtmlUri_eq obj uriInfo
    rw [hpasses, ← hsame, hauth, hmask]
  have hauths : (passes.fill record).uris.map UriInfo.authUri =
      (collectHtml env tokenId record).1.uris.map UriInfo.authUri := by
    rw [fill_uris hhtml, List.map_map]
    exact List.map_congr_left fun uriInfo _ => (passes.fillHtmlUri_eq obj uriInfo).1
  rw [htmlMask, if_pos hsome, findSome?_uriMask hmode hne himage, ← hauths]
  cases hfind : (passes.fill record).uris.find? fun uriInfo =>
      uriInfo.authUri = uri ∧ env.util.normalizeMask uriInfo.permissionMask ≠ 0 with
  | none =>
      rw [if_neg, Option.map_none]
      rintro ⟨hmem, hnonzero⟩
      obtain ⟨filled, hfilledMem, hauth⟩ := List.mem_map.mp hmem
      refine List.find?_eq_none.mp hfind filled hfilledMem (decide_eq_true ⟨hauth, ?_⟩)
      rw [hfilled filled hfilledMem hauth]
      exact hnonzero
  | some filled =>
      have hmem := List.mem_of_find?_eq_some hfind
      have hfound := List.find?_some hfind
      obtain ⟨hauth, hnonzero⟩ := of_decide_eq_true hfound
      rw [hfilled filled hmem hauth] at hnonzero
      rw [Option.map_some, hfilled filled hmem hauth, if_pos
        ⟨List.mem_map.mpr ⟨filled, hmem, hauth⟩, hnonzero⟩]

theorem htmlMask_erasePresets (hmode : permissionPolicyModeMask ≤ mode) (hblind : env.PresetBlind)
    (hne : uri ≠ "")
    (hasked : isHtmlImage env uri = true → passes.first.permissionUris[uri]? ≠ none)
    (hnull : record.htmlObject? = some none → isHtmlImage env uri = true →
      uri ∉ (collectHtml env tokenId record).1.uris.map UriInfo.authUri) :
    htmlMask env true mode (passes.fill record.erasePresets) uri =
      htmlMask env true mode (passes.fill record) uri := by
  have hhtml := (erasePresets_keeps record).1
  have hauths : (collectHtml env tokenId record.erasePresets).1.uris.map UriInfo.authUri =
      (collectHtml env tokenId record).1.uris.map UriInfo.authUri :=
    (collectHtml_erasePresets hblind record).1
  by_cases himage : isHtmlImage env uri = true
  · rcases hobj : record.htmlObject? with _ | _ | obj
    · rw [htmlMask, htmlMask, fill_keeps.1, fill_keeps.1, hhtml, hobj]
      rfl
    · have habsent : ∀ record : UnifiedRecord,
          uri ∉ (collectHtml env tokenId record).1.uris.map UriInfo.authUri →
          (collectHtml env tokenId record).1.uris.find? (fun uriInfo => uriInfo.authUri = uri ∧
            env.util.normalizeMask uriInfo.permissionMask ≠ 0) = none := by
        intro record hnot
        rw [List.find?_eq_none]
        intro uriInfo hmem hfound
        exact hnot (List.mem_map.mpr ⟨uriInfo, hmem, (of_decide_eq_true hfound).1⟩)
      have hnot := hnull hobj himage
      rw [htmlMask_null hmode hobj hne himage, htmlMask_null hmode (hhtml.trans hobj) hne himage,
        habsent record hnot, habsent record.erasePresets (hauths ▸ hnot)]
    · rw [htmlMask_html hmode hobj hne himage (hasked himage),
        htmlMask_html hmode (hhtml.trans hobj) hne himage (hasked himage), hauths]
  · have hnone : ∀ record, htmlMask env true mode record uri = none := by
      intro record
      by_contra hsome
      obtain ⟨mask, hmask⟩ := Option.ne_none_iff_exists'.mp hsome
      obtain ⟨-, -, -, -, -, hfound, -⟩ := htmlMask_some hmask
      exact himage hfound
    rw [hnone, hnone]

variable (passes record) in
theorem fill_erasePresets :
    (passes.fill record.erasePresets).fileObject? = (passes.fill record).fileObject? ∧
      (passes.fill record.erasePresets).entries.isNone = (passes.fill record).entries.isNone := by
  obtain ⟨-, hentries, hfile⟩ := erasePresets_keeps record
  refine ⟨?_, fill_keeps.2.trans (hentries.trans fill_keeps.2.symm)⟩
  simp only [Passes.fill, fillRecord_fileObject, collectRecord_fileObject, hfile]

theorem processFileEntryAuthorization_congr (h : record.fileObject? = record'.fileObject?)
    (strUris : Std.ExtTreeMap String Mask) :
    (processFileEntryAuthorization env record true mode strUris).2 =
      (processFileEntryAuthorization env record' true mode strUris).2 := by
  unfold processFileEntryAuthorization
  rw [h]
  cases record'.fileObject? with
  | none => rfl
  | some obj =>
      dsimp only
      split <;> rfl

theorem recordFails_erasePresets :
    RecordFails env true mode (passes.fill record.erasePresets) ↔
      RecordFails env true mode (passes.fill record) := by
  obtain ⟨hfile, hentries⟩ := fill_erasePresets passes record
  unfold RecordFails
  rw [hentries, processFileEntryAuthorization_congr hfile]

theorem contributes_erasePresets (hmode : permissionPolicyModeMask ≤ mode)
    (hblind : env.PresetBlind)
    (hasked : isHtmlImage env uri = true → passes.first.permissionUris[uri]? ≠ none)
    (hnull : record.htmlObject? = some none → isHtmlImage env uri = true →
      uri ∉ (collectHtml env tokenId record).1.uris.map UriInfo.authUri) :
    Contributes env true mode (passes.fill record.erasePresets) uri p ↔
      Contributes env true mode (passes.fill record) uri p := by
  obtain ⟨hfile, hentries⟩ := fill_erasePresets passes record
  unfold Contributes
  rw [hentries]
  refine and_congr_right fun _ => and_congr_right fun hne => ?_
  rw [getElem?_recordUris, getElem?_recordUris, htmlMask_erasePresets hmode hblind hne hasked hnull,
    fileMask, fileMask, processFileEntryAuthorization_congr hfile]

end

section

variable (env : PreprocessEnv) (srcToken : Token) (data handled : UnifiedData)

/-- On the device of the data: what is granted for the uri of a file entry is in bounds. -/
def LocalGrantsBounded : Prop :=
  ∀ uri p, FileUri data uri → Grants (fileGrants env handled true) uri p →
    InBounds env srcToken data handled uri p

/-- On another device: what is granted for the distributed uri of a file entry is in bounds. -/
def RemoteGrantsBounded : Prop :=
  ∀ record entry p, some record ∈ handled.records → record.fileObject? = some entry →
    Grants (fileGrants env handled false) (entry.remoteUri.getD "") p →
      InBounds env srcToken data handled entry.uri p

/-- The records with a null html object do not have the uri of a file entry that is an image. -/
def NoNullHtmlImage : Prop :=
  ∀ record, some record ∈ data.records → record.htmlObject? = some none →
    ∀ uri, FileUri data uri → isHtmlImage env uri = true →
      uri ∉ (collectHtml env srcToken record).1.uris.map UriInfo.authUri

/-- Two data have the same grants for the uris of file entries. -/
def SameFileGrants (handled' : UnifiedData) : Prop :=
  ∀ uri p, FileUri data uri →
    (Grants (fileGrants env handled' true) uri p ↔ Grants (fileGrants env handled true) uri p)

variable {env srcToken data handled} {passes : Passes env srcToken data} {uri : String}
  {p : UriPermission}

theorem exists_mem_mapRecords {f : UnifiedRecord → UnifiedRecord} {P : UnifiedRecord → Prop} :
    (∃ record, some record ∈ (data.mapRecords f).records ∧ P record) ↔
      ∃ record, some record ∈ data.records ∧ P (f record) := by
  simp only [mem_records_mapRecords, exists_exists_and_eq_and]

theorem grants_handled (hutil : env.util.Normalizes) {isLocal : Bool}
    {f : UnifiedRecord → UnifiedRecord} :
    Grants (fileGrants env (data.mapRecords f) isLocal) uri p ↔
      (¬ ∃ record, some record ∈ data.records ∧
        RecordFails env isLocal (getPermissionPolicyMode data.runtime) (f record)) ∧
      ∃ record, some record ∈ data.records ∧
        Contributes env isLocal (getPermissionPolicyMode data.runtime) (f record) uri p := by
  rw [grants_fileGrants hutil, HasError, exists_mem_mapRecords, exists_mem_mapRecords]
  rfl

variable (hutil : env.util.Normalizes)
  (hmode : permissionPolicyModeMask ≤ getPermissionPolicyMode data.runtime)

include hutil hmode

theorem localGrantsBounded_iff
    (hok : ¬ HasError env true passes.handled) :
    LocalGrantsBounded env srcToken data passes.handled ↔
      NullHtmlBounded env srcToken data passes.handled := by
  constructor
  · intro hbounded record hrecord hnull uri hfile hne himage uriInfo hfound p hgrants
    refine hbounded uri p hfile ((grants_handled hutil).mpr ⟨fun h => hok
      (exists_mem_mapRecords.mpr h), record, hrecord, ?_, hne,
        env.util.normalizeMask uriInfo.permissionMask, ?_, hgrants⟩)
    · rw [fill_keeps.2]
      cases hentries : record.entries with
      | none => simp [UnifiedRecord.htmlObject?, hentries] at hnull
      | some entries => rfl
    · rw [getElem?_recordUris, htmlMask_null hmode hnull hne himage, hfound]
      rfl
  · intro hnull uri p hfile hgrants
    obtain ⟨-, record, hrecord, hcontributes⟩ := (grants_handled hutil).mp hgrants
    exact inBounds_of_contributes hutil hmode hnull hfile hrecord hcontributes

theorem remoteGrantsBounded (hfresh : FreshHtmlUris env data)
    (hdistinct : DistinctDfsUris env srcToken data) :
    RemoteGrantsBounded env srcToken data passes.handled := by
  intro record entry p hrecord hentry hgrants
  obtain ⟨entryRecord, -, rfl⟩ := mem_records_mapRecords.mp hrecord
  obtain ⟨-, source, hsource, hcontributes⟩ := (grants_handled hutil).mp hgrants
  exact inBounds_of_contributes_remote hutil hmode hfresh hdistinct hentry hsource
    hcontributes

theorem sameFileGrants_erasePresets (hblind : env.PresetBlind)
    (hnull : NoNullHtmlImage env srcToken data) :
    SameFileGrants env data passes.handled (data.erasePresets.mapRecords passes.fill) := by
  intro uri p hfile
  have hasked := answered_of_image passes hfile
  have hruntime : data.erasePresets.runtime = data.runtime := rfl
  rw [Passes.handled, grants_handled hutil, grants_handled hutil, hruntime,
    UnifiedData.erasePresets, exists_mem_mapRecords, exists_mem_mapRecords]
  simp only [recordFails_erasePresets]
  refine and_congr_right fun _ => exists_congr fun record => and_congr_right fun hrecord => ?_
  exact contributes_erasePresets hmode hblind hasked fun hobj =>
    hnull record hrecord hobj uri hfile

end

/-- A device off the network where everything may be read and nothing written. -/
def readableDevice : PreprocessEnv :=
  { openDevice with
    checkUriAuthorization uris flag _ := uris.map fun _ => flag = grantReadUriPermission }

/-- A dragged image that may be read, in a record with the given html entry, and with the mask in
an html uri of the image. -/
def dragOfImage (html : Option EntryValue) (mask : Mask) : UnifiedData where
  runtime := some ⟨"udmf://drag/com.example.notes/1", [⟨7, ""⟩], "com.example.notes", "local", 1, 7,
    .working, permissionPolicyModeMask⟩
  properties := none
  records := [some ⟨some ⟨html, some (.object (some ⟨some generalFileUri, some "file://docs/a.png",
    none, some policyReadWrite, some 7, some 1, none, ""⟩)), []⟩,
    [⟨"", "file://docs/a.png", "", policyReadWrite, mask⟩]⟩]

end DataMgr.Udmf
