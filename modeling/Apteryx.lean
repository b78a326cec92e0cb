import Apteryx.Guid
import Apteryx.Callback
import Apteryx.Config
import Apteryx.Effect
import Apteryx.Invariant
import Apteryx.Registrations
import Apteryx.Proxies
import Apteryx.Builtins
import Apteryx.Concurrency
import Apteryx.Interleaving
import Apteryx.Racing
