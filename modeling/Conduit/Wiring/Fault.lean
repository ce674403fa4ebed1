/-
Failures of the wiring: connections that are refused, subscriptions that are not of the kind asked
for, and deliveries in which slots panicked.
-/
import Conduit.Fault
import Conduit.Text.Record

namespace Conduit

open Text (quoted recordText listText)

/-- Why a subscription is not made or not found. -/
inductive ChannelFault
  | alreadyConnected (cardinality : String)
  | invalidCast (expected : String)
  deriving DecidableEq, Repr

namespace ChannelFault

/-- The category of the failure. -/
def status : ChannelFault → Status
  | .alreadyConnected _ => .alreadyConnected
  | .invalidCast _ => .invalidCast

/-- The tag that a failure adds to those of its kind. -/
def tag : ChannelFault → String × String
  | .alreadyConnected cardinality => ("cardinality", cardinality)
  | .invalidCast expected => ("expected", expected)

instance : Fault ChannelFault where
  kind := "ChannelError"
  text
    | .alreadyConnected c => "signal already has a connected slot (cardinality: " ++ c ++ ")"
    | .invalidCast expected => "subscription is not a `" ++ expected ++ "`"
  detail
    | .alreadyConnected c => recordText "AlreadyConnected" [("cardinality", quoted c)]
    | .invalidCast expected => recordText "InvalidCast" [("expected", quoted expected)]
  status := status
  tags e := Fault.tagsAs "channel" e.status [e.tag]

end ChannelFault

/-- A delivery in which slots panicked: of how many slots that were called, and with what texts. -/
structure PublishFault where
  failed : Nat
  total : Nat
  messages : List String
  deriving DecidableEq, Repr

instance : Fault PublishFault where
  kind := "PublishError"
  text e := s!"{e.failed} of {e.total} slots failed during publish"
  detail e := recordText "SlotsFailed"
    [("failed", toString e.failed), ("total", toString e.total),
     ("messages", listText (e.messages.map quoted))]
  status _ := .slotFailed
  publicText e := s!"{e.failed} of {e.total} subscribers failed"
  tags e := Fault.tagsAs "publish" .slotFailed
    [("failed", toString e.failed), ("total", toString e.total)]

end Conduit
