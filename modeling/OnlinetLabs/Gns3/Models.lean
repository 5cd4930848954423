import Mathlib.Data.List.Basic

/-!
# What the GNS3 service keeps of a session

One row for each session, with the project it has on the GNS3 server and the account that may open
it.
-/

namespace OnlinetLabs.Gns3

abbrev ProjectId := Nat

abbrev AccountId := Nat

inductive SessionStatus where
  | active
  | closed
deriving Repr, DecidableEq

end OnlinetLabs.Gns3
