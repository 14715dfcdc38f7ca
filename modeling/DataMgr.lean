import DataMgr.Store.GarbageTimer
import DataMgr.Store.DisabledStores
import DataMgr.Metadata.LocalCache
import DataMgr.Metadata.UpgradeStoreMeta
import DataMgr.Metadata.UuidReplacement
import DataMgr.Cloud.AssetRoundTrip
import DataMgr.Cloud.SyncTally
import DataMgr.Cloud.SchemaScope
import DataMgr.Cloud.CleanOnce
import DataMgr.Cloud.LostSwitches
import DataMgr.Cloud.SubTask
import DataMgr.Cloud.WaterVersion
import DataMgr.Route.RoundTrip
import DataMgr.Udmf.NoAmplification
import DataMgr.Udmf.Confidentiality
import DataMgr.Udmf.Authenticity
import DataMgr.Udmf.AddPrivilege
import DataMgr.Flow.NoLostTasks
import DataMgr.Flow.LabelRemoval
import DataMgr.Rdb.OneCompletion
import DataMgr.Rdb.DBPassword
import DataMgr.Rdb.InsertRows
import DataMgr.Rdb.StoreBinding
import DataMgr.Rdb.AfterOpen
import DataMgr.Rdb.CustomDir
import DataMgr.Rdb.SyncProgress
import DataMgr.Backup.CrashConsistency
import DataMgr.Clone.CloneKeyLifetime
import DataMgr.Clone.BackupSelection
import DataMgr.Clone.SecretKeyRestore
import DataMgr.Matrix.LocalChanges
import DataMgr.Matrix.MaskTranslation
import DataMgr.Matrix.BroadcastLevels
import DataMgr.Kvdb.DelayedSyncs
import DataMgr.Kvdb.QueryLanguage
import DataMgr.Sessions.SameStore
import DataMgr.Object.RestoreReady
import DataMgr.Object.OneCallback
import DataMgr.Object.TransferOutcome
import DataMgr.Object.Downloads
import DataMgr.Object.DroppedChanges
import DataMgr.Object.StoreCount
import DataMgr.Object.SyncFlag
import DataMgr.Object.LeftNotifiers
import DataMgr.Object.MergedAssets
import DataMgr.Object.SplitKey
import DataMgr.Communicator.SoftBusClient
import DataMgr.DataShare.BundleCache
import DataMgr.DataShare.DBDelegate
import DataMgr.DataShare.UpsertVersion
import DataMgr.DataShare.DocumentIds
import DataMgr.DataShare.UriUtils
