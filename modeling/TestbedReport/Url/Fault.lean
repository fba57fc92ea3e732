/-!
# What Can Be Wrong with a URL

A text is no URL for one of a few reasons, and the reason is told to the user
who typed it.

## Main definitions

* `UrlFault`: The reasons.
* `UrlFault.message`: Their wording.
-/

namespace TestbedReport

/-- The reasons for which a text is no URL. -/
inductive UrlFault where
  | relative
  | emptyHost
  | port
  | ipv4
  | ipv6
  | domain
  | hostCharacter
deriving DecidableEq

/-- The wording of a reason. -/
def UrlFault.message : UrlFault → String
  | .relative => "relative URL without a base"
  | .emptyHost => "empty host"
  | .port => "invalid port number"
  | .ipv4 => "invalid IPv4 address"
  | .ipv6 => "invalid IPv6 address"
  | .domain => "invalid international domain name"
  | .hostCharacter => "invalid domain character"

end TestbedReport
