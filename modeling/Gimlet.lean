import Gimlet.Time
import Gimlet.Workqueue
import Gimlet.Controller
import Gimlet.Agent
import Gimlet.Invariant
import Gimlet.StartupFilter
import Gimlet.Store.GitopsCommit
import Gimlet.Store.Interleaving
import Gimlet.Retry
import Gimlet.Delivery
import Gimlet.Uploader
import Gimlet.Gitops.Bootstrap
import Gimlet.Gitops.Rerun
import Gimlet.Dashboard.Init
import Gimlet.Scm.GoScmHelper
import Gimlet.Dashboard.Alert
