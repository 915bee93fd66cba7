import LnurlCash.StricterPolicies

namespace LnurlCash

open Dialogue

section Calls

variable {C : Crates} {config : ClientConfig} {fewer : UInt32}

end Calls

end LnurlCash
