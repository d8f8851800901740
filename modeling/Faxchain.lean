import Faxchain.Filters.Types
import Faxchain.Filters.Timer
import Faxchain.Filters.Registry
import Faxchain.Filters.Invariant
import Faxchain.Filters.LogQuery
import Faxchain.Filters.Lifecycle
import Faxchain.Filters.Deadline
import Faxchain.Filters.Drain
import Faxchain.Filters.Commute
import Faxchain.Filters.Safety
import Faxchain.Filters.Push
import Faxchain.Filters.PushCall
import Faxchain.App.ValidateMsgHook
import Faxchain.Staking.Weight
