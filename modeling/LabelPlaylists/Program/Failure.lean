import LabelPlaylists.Account.Authorization
import LabelPlaylists.CommandLine.Usage
import LabelPlaylists.Library.Fault
import LabelPlaylists.Settings.Basic
import LabelPlaylists.Spotify.Call

/-!
Why a program fails, and how it is said.
-/

namespace LabelPlaylists

inductive DirectoryFault where
  | isFile
  | inFile
deriving DecidableEq, Repr

inductive Failure where
  | library (f : Library.Failure)
  | refused (status : Int) (message : String) (reason : Option String)
      (headers : List (String × String))
  | unreachable (text : String)
  | unexpectedBody (schema : String) (faults : List Spotify.Fault)
  | grantUnreachable (kind text : String)
  | grantRefused (kind : String) (status : Int) (body : String)
  -- An answer of the token endpoint has not the expected shape, or is no JSON at all.
  | grantUnreadable (kind : String) (faults : Option (List Spotify.Fault))
  | noRefreshToken
  | other (text : String)
  | interrupted
  | timeOutOfRange
  | noSession
  | noWorkers
  | usage (u : CommandLine.Usage)
  | settings (p : Settings.Problem)
  | directory (f : DirectoryFault)
  | opening (f : Library.OpenFailure)
  | nobody
  | unknownUser (spotifyId : String)
  | severalUsers (spotifyIds : List String)
  | badExpiry
  | noCode (r : Authorization.Refusal)
  | endOfInput
deriving Repr

namespace Spotify

def Fault.text (f : Fault) : String :=
  ".".intercalate (f.path.map fun
    | .field name => name
    | .element index => toString index) ++ ": " ++ f.kind.name

def faultsText (faults : List Fault) : String := "; ".intercalate (faults.map Fault.text)

end Spotify

namespace Failure

def message : Failure → String
  | library f => f.message
  | refused status message .. => "Spotify API error " ++ toString status ++ ": " ++ message
  | unreachable text => "Spotify API request failed: " ++ text
  | unexpectedBody schema _ => "Spotify response did not match " ++ schema
  | grantUnreachable _ text => "Failed to reach Spotify token endpoint: " ++ text
  | grantRefused kind status _ =>
    "Spotify rejected the " ++ kind ++ " grant (HTTP " ++ toString status ++ ")"
  | grantUnreadable _ faults =>
    "Unexpected token response from Spotify: "
      ++ (faults.map Spotify.faultsText).getD "not a JSON text"
  | noRefreshToken => "Token response for authorization code is missing refresh_token"
  | other text => text
  | interrupted => ""
  | timeOutOfRange => "date value out of range"
  | noSession => "There is no session"
  | noWorkers => "max_workers must be greater than 0"
  | usage u => u.message
  | settings p => p.message
  | directory .isFile => "File exists"
  | directory .inFile => "Not a directory"
  | opening f => f.message
  | nobody => "Nobody is logged in. Run 'playlist-gen login' first."
  | unknownUser id =>
    "No logged-in user with Spotify id '" ++ id ++ "'. Run 'playlist-gen login'."
  | severalUsers ids =>
    "Several users are logged in (" ++ ", ".intercalate ids ++ "); choose one with --user"
  | badExpiry => "Invalid isoformat string"
  | noCode r => r.message
  | endOfInput => ""

structure Ending where
  heading : String
  exitCode : Int
  isLogged : Bool := true
deriving DecidableEq, Repr

-- How a failure ends a command; the others break it off.
def ending? : Failure → Option Ending
  | library .numberTooLarge | library .timeOutOfRange => none
  | library _ | opening _ => some ⟨"Database error", 2, true⟩
  | settings p => if p.isReported then some ⟨"Configuration error", 1, false⟩ else none
  | nobody | unknownUser _ | severalUsers _ => some ⟨"Configuration error", 1, false⟩
  | refused .. | unreachable _ | unexpectedBody .. | grantUnreachable .. | grantRefused ..
  | grantUnreadable .. | noRefreshToken => some ⟨"Spotify error", 3, true⟩
  | other _ => some ⟨"Error", 4, true⟩
  | _ => none

-- A new login, or other credentials, may help.
def mayNeedLogin : Failure → Bool
  | grantUnreachable .. | grantRefused .. => true
  | refused status .. => status = 401
  | _ => false

def ofTrouble : Spotify.Trouble → Failure
  | .refused status message reason headers => .refused status message reason headers
  | .unreachable text => .unreachable text
  | .other text => .other text
  | .interrupted => .interrupted

end Failure

end LabelPlaylists
