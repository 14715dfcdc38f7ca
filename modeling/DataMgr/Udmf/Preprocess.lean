import DataMgr.Udmf.PermissionPolicy

/-! # Preprocessing of uris

`HandleFileUris` runs when data is set: it clears what the client wrote into the
permission fields, asks which uris the client may share, and writes the authorised
masks into the file objects and the html uris. `ProcessFileAuthorization` runs when
the data is read and turns those masks into grants.
-/

namespace DataMgr.Udmf

structure Uri where
  scheme : String
  authority : String
  path : String
deriving DecidableEq, Repr

/-- The other components: the `Uri` class, `SandboxHelper`, the token kit, the type
descriptors, the file system, the html parser, the uri permission manager, the device
manager and the file mount manager. `uriFromHtmlRecord` gives the uris a record holds
after `GetUriFromHtmlRecord`, from its html object and those it held before. -/
structure PreprocessEnv where
  util : UriPermissionUtil
  uri : String → Uri
  decode : String → String
  hapBundleName : Token → Option String
  isImageExtension : String → Bool
  fileUriExists : String → Token → Bool
  uriFromHtmlRecord : Option Object → List UriInfo → List UriInfo
  checkUriAuthorization : List String → Mask → Token → List Bool
  isNetworkingEnabled : Bool
  hapUid : Token → Option Int
  dfsUris : List String → Int → Std.ExtTreeMap String String

def toLower (text : String) : String := String.ofList (text.toList.map Char.toLower)

def fileScheme : String := "file"
def fileSchemePre : String := "file://"
def docsLocalTag : String := "/docs/"

def isLevelSeparator (c : Char) : Bool := c = '/' || c = Char.ofNat 92

variable (env : PreprocessEnv)

def hasPathTraversal (path : String) : Bool :=
  let decodedPath := (env.decode path).toList
  decodedPath.contains (Char.ofNat 0) ||
    (decodedPath.splitOnP isLevelSeparator).contains "..".toList

def matchImgExtension (uri : String) : Bool :=
  let fileName := (uri.toList.reverse.takeWhile fun c => !isLevelSeparator c).reverse
  let ext := (fileName.reverse.takeWhile (· ≠ '.')).reverse
  if !fileName.contains '.' || ext.isEmpty then false
  else env.isImageExtension (String.ofList ('.' :: ext.takeWhile Char.isAlphanum))

/-- `ValidateUriScheme`: whether the uri is valid, and whether it is an error. -/
def validateUriScheme (uri : Uri) : Bool × Bool :=
  let scheme := toLower uri.scheme
  if !scheme.isEmpty && scheme ≠ fileScheme then (false, false)
  else if scheme.isEmpty || uri.authority.isEmpty then (false, true)
  else (true, false)

/-- Whether an html uri is one to ask for. -/
def isHtmlImage (uriStr : String) : Bool :=
  let uri := env.uri uriStr
  if uri.authority.isEmpty then false
  else if toLower uri.scheme ≠ fileScheme || !matchImgExtension env uriStr then false
  else true

variable (obj : Object) (tokenId : Token) (data : UnifiedData) (uris : List String)
  (record : UnifiedRecord) (isLocal : Bool) (permissionPolicyMode : Int)
  (strUris : Std.ExtTreeMap String Mask)

/-- One uri of `ProcessHtmlRecord`, with what it adds to the list. -/
def processHtmlUri (uriInfo : UriInfo) : UriInfo × List String :=
  let collect (newUriStr : String) : List String :=
    if isHtmlImage env newUriStr && env.fileUriExists newUriStr tokenId then [newUriStr] else []
  if isLocal && uriInfo.authUri.isEmpty then
    let path := (env.uri uriInfo.oriUri).path
    if hasPathTraversal env path then (uriInfo, [])
    else
      match env.hapBundleName tokenId with
      | none => (uriInfo, [])
      | some bundleName =>
          let newUriStr :=
            if docsLocalTag.toList.isPrefixOf path.toList then
              fileSchemePre ++ String.ofList (path.toList.drop 1)
            else fileSchemePre ++ (bundleName ++ path)
          ({ uriInfo with authUri := newUriStr }, collect newUriStr)
  else (uriInfo, collect (if isLocal then uriInfo.authUri else uriInfo.dfsUri))

def processHtmlRecord (tokenId : Token) (isLocal : Bool) : UnifiedRecord × List String :=
  let results := record.uris.map (processHtmlUri env tokenId isLocal)
  ({ record with uris := results.map Prod.fst }, results.flatMap Prod.snd)

/-- The html part of one record in `HandleFileUris`. -/
def collectHtml : UnifiedRecord × List String :=
  match record.htmlObject? with
  | some obj =>
      processHtmlRecord env { record with uris := env.uriFromHtmlRecord obj record.uris } tokenId
        true
  | none => (record, [])

/-- What `HandleFileUris` leaves of the permission fields before it writes them. -/
def Object.clearPermissions : Object :=
  { obj with
    remoteUri := some ""
    permissionPolicy := some policyNoPermission
    uriPermissionMask := some 0 }

def collectFile : UnifiedRecord × List String :=
  match record.fileObject? with
  | some obj =>
      let oriUri := obj.oriUri.getD ""
      (record.setFileObject obj.clearPermissions,
        if (validateUriScheme (env.uri oriUri)).1 then [oriUri] else [])
  | none => (record, [])

/-- The loop of `HandleFileUris` on one record: the record, its file uris and its html
uris. -/
def collectRecord : UnifiedRecord × List String × List String :=
  let (record, htmlUris) := collectHtml env tokenId record
  let (record, fileUris) := collectFile env record
  (record, fileUris, htmlUris)

/-- The data after the loop, and the uris it found. -/
def clearedData : UnifiedData :=
  data.mapRecords fun record => (collectRecord env tokenId record).1

def fileUris : List String :=
  data.records.reduceOption.flatMap fun record => (collectRecord env tokenId record).2.1

def htmlUris : List String :=
  data.records.reduceOption.flatMap fun record => (collectRecord env tokenId record).2.2

def verifyUriPermissionMaxSize : Nat := 500

/-- The slices `[index, min (index + size, length))` for `index = 0, size, 2 * size, …`. -/
def batches {α : Type} (size : Nat) (items : List α) : List (List α) :=
  (List.range ((items.length + size - 1) / size)).map fun k => (items.drop (k * size)).take size

/-- The mask `CheckUriAuthorization` builds from two answers. -/
def answeredMask (readOnly canRead canWrite : Bool) : Mask :=
  let mask := if canRead then readFlag else 0
  let mask := if !readOnly && canWrite then mask ||| writeFlag else mask
  if !readOnly && (Has mask readFlag || Has mask writeFlag) then mask ||| persistFlag else mask

/-- The inner loop of `CheckUriAuthorization` from position `i` of a batch on. -/
def recordAnswers (readOnly : Bool) (readResults writeResults : List Bool) :
    List String → Nat → Std.ExtTreeMap String Mask → Option (Std.ExtTreeMap String Mask)
  | [], _, permissionUris => some permissionUris
  | uri :: uris, i, permissionUris =>
      let mask :=
        answeredMask readOnly (readResults[i]?.getD false) (writeResults[i]?.getD false)
      if readOnly && !decide (Has mask readFlag) then none
      else if mask = 0 then none
      else
        recordAnswers readOnly readResults writeResults uris (i + 1)
          (permissionUris.insert uri mask)

/-- `CheckUriAuthorization` in batches; `none` is a refusal. -/
def checkUriAuthorization (tokenId : Token) (readOnly : Bool) :
    Option (Std.ExtTreeMap String Mask) :=
  (batches verifyUriPermissionMaxSize uris).foldlM
    (fun permissionUris batch =>
      recordAnswers readOnly (env.checkUriAuthorization batch grantReadUriPermission tokenId)
        (env.checkUriAuthorization batch grantWriteUriPermission tokenId) batch 0 permissionUris)
    ∅

def processFileType (callback : Object → Object) : UnifiedRecord :=
  match record.fileObject? with
  | some obj =>
      if obj.uniformDataType = some generalFileUri then record.setFileObject (callback obj)
      else record
  | none => record

section

variable (properties : Option Properties) (dfsUris : Std.ExtTreeMap String String)
  (permissionUris : Std.ExtTreeMap String Mask)

def fillHtmlUri (htmlObject : Object) (uriInfo : UriInfo) : UriInfo :=
  match permissionUris[uriInfo.authUri]? with
  | none => uriInfo
  | some available =>
      let (granted, mask) :=
        getAuthorizedUriPermissionMask env.util properties (some htmlObject) available
      let uriInfo :=
        if granted then
          { uriInfo with
            permission := toPermissionPolicy env.util mask
            permissionMask := mask }
        else { uriInfo with permission := policyNoPermission, permissionMask := 0 }
      match dfsUris[uriInfo.authUri]? with
      | some dfsUri => { uriInfo with dfsUri := dfsUri }
      | none => uriInfo

def fillHtmlEntry (record : UnifiedRecord) : UnifiedRecord :=
  match record.htmlObject? with
  | some (some obj) =>
      { record with
        uris := record.uris.map (fillHtmlUri env properties dfsUris permissionUris obj) }
  | _ => record

def fillFileObject (obj : Object) : Object :=
  let oriUri := obj.oriUri.getD ""
  match permissionUris[oriUri]? with
  | none => obj
  | some available =>
      let (granted, mask) :=
        getAuthorizedUriPermissionMask env.util properties (some obj) available
      let obj :=
        if granted then
          { obj with
            permissionPolicy := some (toPermissionPolicy env.util mask)
            uriPermissionMask := some mask.toInt }
        else
          { obj with
            permissionPolicy := some policyNoPermission
            uriPermissionMask := some 0 }
      match dfsUris[oriUri]? with
      | some dfsUri => { obj with remoteUri := some dfsUri }
      | none => obj

def fillFileEntry (record : UnifiedRecord) : UnifiedRecord :=
  processFileType record (fillFileObject env properties dfsUris permissionUris)

end

def fillUris (dfsUris : Std.ExtTreeMap String String)
    (permissionUris : Std.ExtTreeMap String Mask) : UnifiedData :=
  if permissionUris.isEmpty then data
  else
    data.mapRecords fun record =>
      fillFileEntry env data.properties dfsUris permissionUris
        (fillHtmlEntry env data.properties dfsUris permissionUris record)

/-- The dfs uris of `ReadCheckUri`: none off the network or for an unknown token. -/
def knownDfsUris : Std.ExtTreeMap String String :=
  if !env.isNetworkingEnabled then ∅
  else
    match env.hapUid tokenId with
    | some userId => env.dfsUris uris userId
    | none => ∅

def readCheckUri (readOnly : Bool) : Status × UnifiedData :=
  if uris.isEmpty then (.eOk, data)
  else
    match checkUriAuthorization env uris tokenId readOnly with
    | none => (.eNoPermission, data)
    | some permissionUris =>
        (.eOk, fillUris env data (knownDfsUris env tokenId uris) permissionUris)

def handleFileUris : Status × UnifiedData :=
  match readCheckUri env tokenId (clearedData env tokenId data) (fileUris env tokenId data)
      false with
  | (.eOk, filled) => readCheckUri env tokenId filled (htmlUris env tokenId data) true
  | (status, filled) => (status, filled)

/-- One uri of `ProcessHtmlEntryAuthorization`. -/
def authorizeHtmlUri (uriInfo : UriInfo) : Std.ExtTreeMap String Mask :=
  let permissionMask := toPermissionMaskOfUri env.util uriInfo permissionPolicyMode
  let uriStr := if isLocal then uriInfo.authUri else uriInfo.dfsUri
  if permissionMask = 0 then strUris
  else if uriStr.isEmpty then strUris
  else if isHtmlImage env uriStr then strUris.insertIfNew uriStr permissionMask
  else strUris

def processHtmlEntryAuthorization : Std.ExtTreeMap String Mask :=
  match record.htmlObject? with
  | some _ => record.uris.foldl (authorizeHtmlUri env isLocal permissionPolicyMode) strUris
  | none => strUris

/-- `ValidateFileEntry`: the object, whether it is valid, and whether it is an error. -/
def validateFileEntry : Object × Bool × Bool :=
  let oriUri := obj.oriUri.getD ""
  if obj.uniformDataType ≠ some generalFileUri then (obj, false, false)
  else if oriUri.isEmpty then (obj, false, false)
  else
    match validateUriScheme (env.uri oriUri) with
    | (false, hasError) => (obj, false, hasError)
    | (true, _) =>
        if isLocal then (obj, true, false)
        else
          let remoteUri := obj.remoteUri.getD ""
          if remoteUri.isEmpty then (obj, false, true)
          else
            -- across devices the distributed path takes the place of the original
            let obj := { obj with oriUri := some remoteUri }
            match validateUriScheme (env.uri remoteUri) with
            | (false, hasError) => (obj, false, hasError)
            | (true, _) => (obj, true, false)

/-- The callback of `ProcessFileEntryAuthorization`. -/
def authorizeFileObject : Object × Bool × Std.ExtTreeMap String Mask :=
  let (obj, isValid, hasError) := validateFileEntry env obj isLocal
  if hasError || !isValid then (obj, hasError, strUris)
  else
    match if isLocal then obj.oriUri else obj.remoteUri with
    | none => (obj, false, strUris)
    | some uriStr =>
        let permissionMask := toPermissionMask env.util obj permissionPolicyMode
        if uriStr.isEmpty then (obj, false, strUris)
        else if permissionMask = 0 then (obj, false, strUris)
        else (obj, false, strUris.insertIfNew uriStr permissionMask)

def processFileEntryAuthorization : UnifiedRecord × Bool × Std.ExtTreeMap String Mask :=
  match record.fileObject? with
  | some obj =>
      if obj.uniformDataType = some generalFileUri then
        let (obj, hasError, strUris) :=
          authorizeFileObject env obj isLocal permissionPolicyMode strUris
        (record.setFileObject obj, hasError, strUris)
      else (record, false, strUris)
  | none => (record, false, strUris)

/-- The loop of `ProcessFileAuthorization`, which stops at the first error. -/
def authorizeRecords (isLocal : Bool) (permissionPolicyMode : Int) :
    List (Option UnifiedRecord) → Std.ExtTreeMap String Mask →
      Bool × List (Option UnifiedRecord) × Std.ExtTreeMap String Mask
  | [], uriPermissions => (false, [], uriPermissions)
  | none :: records, uriPermissions =>
      let (hasError, rest, uriPermissions) :=
        authorizeRecords isLocal permissionPolicyMode records uriPermissions
      (hasError, none :: rest, uriPermissions)
  | some record :: records, uriPermissions =>
      if record.entries.isNone then
        let (hasError, rest, uriPermissions) :=
          authorizeRecords isLocal permissionPolicyMode records uriPermissions
        (hasError, some record :: rest, uriPermissions)
      else
        let strUris :=
          processHtmlEntryAuthorization env record isLocal permissionPolicyMode ∅
        let (record, hasError, strUris) :=
          processFileEntryAuthorization env record isLocal permissionPolicyMode strUris
        if hasError then (true, some record :: records, uriPermissions)
        else
          let (hasError, rest, uriPermissions) :=
            authorizeRecords isLocal permissionPolicyMode records
              (appendGrantUriPermission env.util strUris uriPermissions)
          (hasError, some record :: rest, uriPermissions)

def clearHtmlDfsUris : UnifiedData :=
  data.mapRecords fun record =>
    { record with uris := record.uris.map fun uriInfo => { uriInfo with dfsUri := "" } }

/-- `ProcessFileAuthorization`: the error flag, the data and the grants. -/
def processFileAuthorization : Bool × UnifiedData × Std.ExtTreeMap String Mask :=
  let permissionPolicyMode := getPermissionPolicyMode data.runtime
  let (hasError, records, uriPermissions) :=
    authorizeRecords env isLocal permissionPolicyMode data.records ∅
  let data := { data with records := records }
  if hasError then (true, data, uriPermissions)
  else (false, if isLocal then clearHtmlDfsUris data else data, uriPermissions)

/-- A device off the network where everything may be read and written. -/
def openDevice : PreprocessEnv where
  util := ⟨id, fun _ => 7⟩
  uri text := ⟨"file", "docs", text⟩
  decode := id
  hapBundleName _ := some "com.example.notes"
  isImageExtension _ := true
  fileUriExists _ _ := true
  uriFromHtmlRecord _ uris := uris
  checkUriAuthorization uris _ _ := uris.map fun _ => true
  isNetworkingEnabled := false
  hapUid _ := none
  dfsUris _ _ := ∅

end DataMgr.Udmf
