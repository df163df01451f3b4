import CoordStore.Text.Blank
import CoordStore.Script.Exec
import CoordStore.Config.Load
import CoordStore.Float.Shortest
import CoordStore.Proofs.Service.Notify
import CoordStore.Proofs.Service.Refine
import CoordStore.Proofs.Service.Sequential
import CoordStore.Proofs.Service.PrefixView
import CoordStore.Proofs.Service.Watched
import CoordStore.Proofs.Monitor.IdSet
import CoordStore.Proofs.Service.Place
import CoordStore.Proofs.Monitor.EntityRefresh
import CoordStore.Proofs.Monitor.Entity
import CoordStore.Proofs.Service.Failure
import CoordStore.Proofs.Service.Expiry
import CoordStore.Proofs.Service.ErrorPaths
import CoordStore.Proofs.Manager.Prepare
import CoordStore.Proofs.Codec.Utf8
import CoordStore.Proofs.Codec.Entity
import CoordStore.Proofs.Service.Accounting
import CoordStore.Proofs.Path.Grammar
import CoordStore.Proofs.Config.Layer
import CoordStore.Proofs.Config.Precedence
