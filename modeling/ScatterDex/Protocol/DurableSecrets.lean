import ScatterDex.Pro.Flows
import ScatterDex.Pay.RealDeposit

/-!
# The secrets of a flow outlive it

A note that is deposited, rotated or left as change, and a claim of an order, can be spent by whoever has its secrets and by nobody else. Four flows of the clients make such secrets and send the request that needs them. What they store of them is stored behind the request, so whether the secrets outlive the flow is a matter of what happens in between.
-/

namespace ScatterDex

open Client

namespace Protocol

end Protocol

end ScatterDex
