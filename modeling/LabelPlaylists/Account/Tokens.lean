import LabelPlaylists.Program.Basic

/-!
Access tokens: asking the token endpoint for them, and replacing one that has expired before a call
is made. A new refresh token takes the place of the old one, in the session if it is not empty and
in the library if there is one at all.
-/

namespace LabelPlaylists.Account

open Spotify (Grant Schema)

def logger : String := "playlist_gen.spotify.auth"

-- Asks the token endpoint for a grant. It refuses one with a status from 400 to 599.
def requestGrant (g : Grant.Form) : Program Grant :=
  .ask (.grant g) fun
    | .error text => .fail (.grantUnreachable g.kind text)
    | .ok answer =>
      if answer.status < 400 ∨ 600 ≤ answer.status then
        match Json.read? answer.text with
        | none => .fail (.grantUnreadable g.kind none)
        | some body =>
          match Schema.grant.read body with
          | .error faults => .fail (.grantUnreadable g.kind (some faults))
          | .ok grant => .done grant
      else do
        Program.log .error logger
          ("Spotify token endpoint returned " ++ toString answer.status ++ ": " ++ answer.text)
        .fail (.grantRefused g.kind answer.status answer.text)

def expiry (lifetime : Int) : Program Moment := do
  match Session.expiry? (← Program.now) lifetime with
  | some m => return m
  | none => .fail .timeOutOfRange

-- The session with a new access token, and a new refresh token if it is not empty.
def renewed (s : Session) (g : Grant) (expiresAt : Moment) : Session :=
  { s with
    accessToken := g.accessToken
    expiresAt := expiresAt
    refreshToken := match g.refreshToken with
      | some token => if token = "" then s.refreshToken else token
      | none => s.refreshToken }

def refresh : Program Unit := do
  let s ← Program.session
  let grant ← requestGrant (.ofRefresh s.refreshToken)
  let expiresAt ← expiry grant.expiresIn
  Program.library <| .setTokens (.integer s.userId) (.text grant.accessToken) expiresAt
    (.ofOption grant.refreshToken)
  Program.setSession (renewed s grant expiresAt)
  Program.log .debug logger
    ("Refreshed access token for user " ++ toString s.userId ++ ", valid until "
      ++ expiresAt.textWith " ")

def validToken : Program String := do
  let s ← Program.session
  if s.isExpired? (← Program.now) = some true then
    Program.log .info logger "Access token expired, refreshing..."
    refresh
  return (← Program.session).accessToken

def exchangeCode (code redirectUri : String) : Program (Grant × String) := do
  let grant ← requestGrant (.ofCode code redirectUri)
  match grant.refreshToken with
  | none => .fail .noRefreshToken
  | some token => if token = "" then .fail .noRefreshToken else return (grant, token)

end LabelPlaylists.Account
