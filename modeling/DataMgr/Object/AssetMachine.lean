import DataMgr.Cloud.CloudDataTranslate
import DataMgr.Foundation.Machine

/-! # The machine of a bound asset

An asset of an object that is bound to a column of a table is followed by a table of
statuses and events. A remote change starts a transfer or is kept for later; when a
transfer is done, its callback reads the asset of the shared record, whatever that is by
then, and merges it into the row. The transfers whose callback may still come, the events
posted and the rows written are kept beside the record.
-/

namespace DataMgr.Object

open DataMgr.Foundation
open DataMgr.Cloud (DataAsset)

inductive TransferStatus where
  | stable
  | transferring
  | downloading
  | uploading
  | waitTransfer
  | waitUpload
  | waitDownload
deriving DecidableEq, Repr

inductive AssetEvent where
  | remoteChanged
  | transferFinished
  | upload
  | uploadFinished
  | download
  | downloadFinished
deriving DecidableEq, Repr

/-- A value of a column; of the kinds without assets only `std::monostate` matters. -/
inductive ColumnValue (β : Type) where
  | null
  | asset (asset : DataAsset)
  | assets (assets : List DataAsset)
  | other (value : β)

abbrev VBucket (β : Type) := String → Option (ColumnValue β)

structure AssetBindInfo (β : Type) where
  storeName : String
  tableName : String
  /-- The entries of a map, in the order of their keys. -/
  primaryKey : List (String × ColumnValue β)
  field : String
  assetName : String

structure StoreInfo where
  tokenId : UInt32
  bundleName : String
  instanceId : Int
  user : Int

structure ChangedAssetInfo (β : Type) where
  deviceId : String := ""
  asset : DataAsset
  status : TransferStatus := .stable
  bindInfo : AssetBindInfo β
  storeInfo : StoreInfo

inductive BindEventId where
  | compensateSync
  | recoverSync
deriving DecidableEq, Repr

structure BindEventInfo (β : Type) where
  tokenId : UInt32
  instanceId : Int
  user : Int
  bundleName : String
  storeName : String
  tableName : String
  primaryKey : List (String × ColumnValue β)
  filed : String
  assetName : String

def makeBindInfo {β : Type} (changedAsset : ChangedAssetInfo β) : BindEventInfo β where
  bundleName := changedAsset.storeInfo.bundleName
  user := changedAsset.storeInfo.user
  tokenId := changedAsset.storeInfo.tokenId
  instanceId := changedAsset.storeInfo.instanceId
  storeName := changedAsset.bindInfo.storeName
  tableName := changedAsset.bindInfo.tableName
  filed := changedAsset.bindInfo.field
  primaryKey := changedAsset.bindInfo.primaryKey
  assetName := changedAsset.bindInfo.assetName

/-- A store that was opened: what a query of a table yields, row by row. A query or cursor
that fails yields nothing, a row that cannot be read is `none`. -/
structure BoundStore (β : Type) where
  query : String → String → List (ColumnValue β) → Option (List (Option (VBucket β)))

section

variable {β : Type}

def sqlAnd : String := " = ? and "

def andSize : Nat := 5

def buildSql (bindInfo : AssetBindInfo β) : String × List (ColumnValue β) :=
  let sql := "SELECT " ++ bindInfo.field ++ " FROM " ++ bindInfo.tableName ++ " WHERE " ++
    String.join (bindInfo.primaryKey.map fun entry => entry.1 ++ sqlAnd)
  (String.ofList (sql.toList.take (sql.length - andSize)), bindInfo.primaryKey.map Prod.snd)

def mergeAsset (oldAsset newAsset : DataAsset) : DataAsset :=
  { oldAsset with
    name := newAsset.name
    uri := newAsset.uri
    modifyTime := newAsset.modifyTime
    createTime := newAsset.createTime
    size := newAsset.size
    hash := newAsset.hash
    path := newAsset.path }

/-- The first asset of that name is replaced, or the asset is new at the end. -/
def mergeAssets (newAsset : DataAsset) : List DataAsset → List DataAsset
  | [] => [newAsset]
  | asset :: rest =>
      if asset.name = newAsset.name then mergeAsset asset newAsset :: rest
      else asset :: mergeAssets newAsset rest

def setPrimaryKey (record : VBucket β) (primaryKey : List (String × ColumnValue β)) : VBucket β :=
  primaryKey.foldl (fun record entry => Function.update record entry.1 (some entry.2)) record

def mergeAssetData (record : VBucket β) (newAsset : DataAsset) (bindInfo : AssetBindInfo β) :
    VBucket β :=
  let record := setPrimaryKey record bindInfo.primaryKey
  match record bindInfo.field with
  | some .null => Function.update record bindInfo.field (some (.assets [newAsset]))
  -- the names are compared, but an asset of the same name is left as it is, too
  | some (.asset _) => record
  | some (.assets assets) =>
      Function.update record bindInfo.field (some (.assets (mergeAssets newAsset assets)))
  | some (.other _) => record
  | none => record

def boundRow (store : BoundStore β) (bindInfo : AssetBindInfo β) : Option (VBucket β) :=
  match store.query bindInfo.tableName (buildSql bindInfo).1 (buildSql bindInfo).2 with
  | some [some entry] => some entry
  | _ => none

def getMigratedData (store : BoundStore β) (bindInfo : AssetBindInfo β) (newAsset : DataAsset) :
    List (VBucket β) :=
  match boundRow store bindInfo with
  | some entry => [mergeAssetData entry newAsset bindInfo]
  | none => []

/-- The rows handed to `MergeMigratedData`; none if there is no store. -/
def updateStore (changedAsset : ChangedAssetInfo β) (store : Option (BoundStore β)) :
    List (VBucket β) :=
  match store with
  | some store => getMigratedData store changedAsset.bindInfo changedAsset.asset
  | none => []

end

inductive DfaFunction where
  | doTransfer
  | saveNewAsset
  | changeAssetToNormal
  | compensateTransferring
  | compensateSync
  | recover
deriving DecidableEq, Repr

/-- `before` is null throughout the table and left out; `none` as the next status is
`STATUS_NO_CHANGE`. -/
structure DfaAction where
  next : Option TransferStatus
  after : Option DfaFunction

def assetDfa : TransferStatus → AssetEvent → DfaAction
  | .stable, .remoteChanged => ⟨some .transferring, some .doTransfer⟩
  | .stable, .transferFinished => ⟨none, some .recover⟩
  | .stable, .upload => ⟨some .uploading, none⟩
  | .stable, .uploadFinished => ⟨none, some .recover⟩
  | .stable, .download => ⟨some .downloading, none⟩
  | .stable, .downloadFinished => ⟨none, some .recover⟩
  | .transferring, .remoteChanged => ⟨some .waitTransfer, some .saveNewAsset⟩
  | .transferring, .transferFinished => ⟨some .stable, none⟩
  | .transferring, .upload => ⟨some .waitUpload, some .changeAssetToNormal⟩
  | .transferring, .uploadFinished => ⟨none, some .recover⟩
  | .transferring, .download => ⟨some .waitDownload, some .changeAssetToNormal⟩
  | .transferring, .downloadFinished => ⟨none, some .recover⟩
  | .downloading, .remoteChanged => ⟨some .waitTransfer, some .saveNewAsset⟩
  | .downloading, .transferFinished => ⟨none, some .recover⟩
  | .downloading, .upload => ⟨none, some .recover⟩
  | .downloading, .uploadFinished => ⟨none, some .recover⟩
  | .downloading, .download => ⟨none, some .recover⟩
  | .downloading, .downloadFinished => ⟨some .stable, none⟩
  | .uploading, .remoteChanged => ⟨some .waitTransfer, some .saveNewAsset⟩
  | .uploading, .transferFinished => ⟨none, some .recover⟩
  | .uploading, .upload => ⟨none, some .recover⟩
  | .uploading, .uploadFinished => ⟨some .stable, none⟩
  | .uploading, .download => ⟨none, some .recover⟩
  | .uploading, .downloadFinished => ⟨none, some .recover⟩
  | .waitTransfer, .remoteChanged => ⟨some .waitTransfer, some .saveNewAsset⟩
  | .waitTransfer, .transferFinished => ⟨some .stable, some .compensateTransferring⟩
  | .waitTransfer, .upload => ⟨some .waitUpload, some .changeAssetToNormal⟩
  | .waitTransfer, .uploadFinished => ⟨some .stable, some .compensateTransferring⟩
  | .waitTransfer, .download => ⟨some .waitDownload, some .changeAssetToNormal⟩
  | .waitTransfer, .downloadFinished => ⟨some .stable, some .compensateTransferring⟩
  | .waitUpload, .remoteChanged => ⟨some .waitTransfer, some .saveNewAsset⟩
  | .waitUpload, .transferFinished => ⟨some .stable, some .compensateSync⟩
  | .waitUpload, .upload => ⟨some .waitUpload, some .changeAssetToNormal⟩
  | .waitUpload, .uploadFinished => ⟨none, some .recover⟩
  | .waitUpload, .download => ⟨some .waitDownload, some .changeAssetToNormal⟩
  | .waitUpload, .downloadFinished => ⟨none, some .recover⟩
  | .waitDownload, .remoteChanged => ⟨some .waitTransfer, some .saveNewAsset⟩
  | .waitDownload, .transferFinished => ⟨some .stable, some .compensateSync⟩
  | .waitDownload, .upload => ⟨some .waitUpload, some .changeAssetToNormal⟩
  | .waitDownload, .uploadFinished => ⟨none, some .recover⟩
  | .waitDownload, .download => ⟨some .waitDownload, some .changeAssetToNormal⟩
  | .waitDownload, .downloadFinished => ⟨none, some .recover⟩

theorem assetDfa_remoteChanged (status : TransferStatus) :
    (assetDfa status .remoteChanged).after = some .doTransfer ∨
      (assetDfa status .remoteChanged).after = some .saveNewAsset := by
  cases status <;> decide

theorem assetDfa_of_ne {event : AssetEvent} (h : event ≠ .remoteChanged) (status : TransferStatus) :
    (assetDfa status event).after ≠ some .doTransfer ∧
      (assetDfa status event).after ≠ some .saveNewAsset := by
  cases event with
  | remoteChanged => exact absurd rfl h
  | transferFinished | upload | uploadFinished | download | downloadFinished =>
      cases status <;> decide

/-- What a callback wrote: the asset its transfer fetched, the store it found and the rows. -/
structure AssetWrite (β : Type) where
  fetched : DataAsset
  bindInfo : AssetBindInfo β
  store : Option (BoundStore β)
  vBuckets : List (VBucket β)

structure BoundAsset (β : Type) where
  info : ChangedAssetInfo β
  /-- The transfers handed to the loader whose callback may still come. -/
  transfers : List (String × DataAsset) := []
  /-- The callbacks that still have to post that their transfer is finished. -/
  finishing : Nat := 0
  events : List (BindEventId × BindEventInfo β) := []
  writes : List (AssetWrite β) := []

namespace BoundAsset

variable {β : Type}

variable (s : BoundAsset β) (newAsset : String × DataAsset)

def setStatus (status : TransferStatus) : BoundAsset β :=
  { s with info := { s.info with status } }

def saveNewAsset : BoundAsset β :=
  { s with info := { s.info with deviceId := newAsset.1, asset := newAsset.2 } }

def doTransfer : BoundAsset β :=
  { s with
    info := { s.info with deviceId := newAsset.1, asset := newAsset.2 }
    transfers := s.transfers ++ [newAsset] }

def changeAssetToNormal (asset : DataAsset) : DataAsset := { asset with status := 1 }

def compensateSync : BoundAsset β :=
  { s with events := s.events ++ [(.compensateSync, makeBindInfo s.info)] }

def recover : BoundAsset β :=
  { s.setStatus .stable with events := s.events ++ [(.recoverSync, makeBindInfo s.info)] }

/-- `DFAPostEvent` with what `CompensateTransferring` does; the second result is the asset
the caller passed. -/
def postEventWith (compensate : BoundAsset β → BoundAsset β) (s : BoundAsset β) (event : AssetEvent)
    (asset : DataAsset) (newAsset : String × DataAsset) : BoundAsset β × DataAsset :=
  let action := assetDfa s.info.status event
  let s := s.setStatus (action.next.getD s.info.status)
  match action.after with
  | none => (s, asset)
  | some .doTransfer => (s.doTransfer newAsset, asset)
  | some .saveNewAsset => (s.saveNewAsset newAsset, asset)
  | some .changeAssetToNormal => (s, changeAssetToNormal asset)
  | some .compensateTransferring => (compensate s, asset)
  | some .compensateSync => (s.compensateSync, asset)
  | some .recover => (s.recover, asset)

/-- The event it posts is a remote change, which never compensates. -/
def compensateTransferring : BoundAsset β :=
  (s.postEventWith id .remoteChanged s.info.asset (s.info.deviceId, s.info.asset)).1

def dfaPostEvent (event : AssetEvent) (asset : DataAsset) (newAsset : String × DataAsset) :
    BoundAsset β × DataAsset :=
  s.postEventWith compensateTransferring event asset newAsset

def noAsset : String × DataAsset := ("", ⟨0, 0, 0, "", "", "", "", "", "", "", "", ""⟩)

/-- The callback of a transfer, as far as the store; `again` says that the loader will
invoke it once more. -/
def callback (i : Nat) (fetched : DataAsset) (success again : Bool)
    (store : Option (BoundStore β)) : BoundAsset β :=
  { s with
    transfers := if again then s.transfers else s.transfers.eraseIdx i
    finishing := s.finishing + 1
    writes :=
      if success then s.writes ++ [⟨fetched, s.info.bindInfo, store, updateStore s.info store⟩]
      else s.writes }

def finish : BoundAsset β :=
  { (s.dfaPostEvent .transferFinished s.info.asset noAsset).1 with finishing := s.finishing - 1 }

end BoundAsset

inductive AssetAction (β : Type) where
  | post (event : AssetEvent) (asset : DataAsset) (newAsset : String × DataAsset)
  | callback (i : Nat) (success again : Bool) (store : Option (BoundStore β))
  | finish

def BoundAsset.step {β : Type} (s : BoundAsset β) : AssetAction β → Option (BoundAsset β)
  | .post event asset newAsset => some (s.dfaPostEvent event asset newAsset).1
  | .callback i success again store =>
      (s.transfers[i]?).map fun transfer => s.callback i transfer.2 success again store
  | .finish => if s.finishing = 0 then none else some s.finish

def boundAssetMachine (β : Type) : Machine (BoundAsset β) (AssetAction β) := ⟨BoundAsset.step⟩

end DataMgr.Object
