import LabelPlaylists.Text.Blank
import LabelPlaylists.Web.Url

/-!
Where a user grants access, and the code that comes back: the user pastes the URL the browser was
sent to, or the bare code.
-/

namespace LabelPlaylists.Authorization

def authorizeEndpoint : String := "https://accounts.spotify.com/authorize"

def scope : String := "user-library-read playlist-modify-private playlist-modify-public"

def fields (clientId redirectUri state : String) : List (String × String) :=
  [("client_id", clientId), ("response_type", "code"), ("redirect_uri", redirectUri),
    ("scope", scope), ("state", state), ("show_dialog", "true")]

def url (clientId redirectUri state : String) : String :=
  authorizeEndpoint ++ "?" ++ Web.formText (fields clientId redirectUri state)

inductive Refusal where
  | badUrl
  | denied (reason : String)
  | stateMismatch
  | noCode
deriving DecidableEq, Repr

-- What the user is told; a URL that cannot be read has no message of its own.
def Refusal.message : Refusal → String
  | badUrl => ""
  | denied reason => "Authorization was denied: " ++ reason
  | stateMismatch => "State mismatch in redirect URL; start the login again"
  | noCode => "The redirect URL does not contain a code"

-- The code in the fields of a redirect. A state that is missing passes.
def codeOfFields (fields : List (String × String)) (state : String) : Except Refusal String :=
  match Web.fieldValue? fields "error" with
  | some reason => .error (.denied reason)
  | none =>
    if (Web.fieldValue? fields "state").getD state ≠ state then .error .stateMismatch
    else
      match Web.fieldValue? fields "code" with
      | some code => .ok code
      | none => .error .noCode

def code (pasted state : String) : Except Refusal String :=
  let pasted := Text.trimmed pasted
  if !pasted.toList.contains '?' then .ok pasted
  else
    match Web.query? pasted with
    | none => .error .badUrl
    | some query => codeOfFields (Web.formFields query) state

end LabelPlaylists.Authorization
