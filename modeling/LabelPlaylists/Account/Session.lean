import LabelPlaylists.Calendar.Moment
import LabelPlaylists.Library.Tables

/-!
The tokens of a logged-in user while a command runs. An access token counts as expired a minute
before its time.
-/

namespace LabelPlaylists

structure Session where
  userId : Int
  spotifyId : String
  accessToken : String
  refreshToken : String
  expiresAt : Moment
deriving DecidableEq, Repr

namespace Session

-- Seconds by which an access token is given up early.
def margin : Int := 60

-- When an access token of a given lifetime is given up, if the calendar reaches that far.
def expiry? (now : Moment) (lifetime : Int) : Option Moment := now.addSeconds? (lifetime - margin)

-- An expiry from its stored text; one without a zone is in UTC.
def storedExpiry? (s : String) : Option Moment := (Moment.ofIso? s).map Moment.orUtc

def ofUser? (u : Library.User) : Option Session :=
  (storedExpiry? u.expiresAt).map fun expiresAt =>
    ⟨u.id, u.spotifyId, u.accessToken, u.refreshToken, expiresAt⟩

-- Whether the access token has to be replaced; unknown for a clock that cannot be compared.
def isExpired? (s : Session) (now : Moment) : Option Bool := now.isAfter? s.expiresAt

end Session

end LabelPlaylists
