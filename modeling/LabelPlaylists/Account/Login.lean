import LabelPlaylists.Account.Service

/-!
Logging in: the code of a redirect becomes tokens, the tokens tell whose they are, and the user is
put into the library.
-/

namespace LabelPlaylists.Account

def login (code redirectUri : String) : Program Session := do
  let (grant, refreshToken) ← exchangeCode code redirectUri
  let expiresAt ← expiry grant.expiresIn
  let profile ← Service.execute grant.accessToken .profile .profile
  let avatarUrl := profile.images.head?.map (·.url)
  let userId ← Program.library <| .putUser
    ⟨.text profile.id, .ofOption avatarUrl, .text grant.accessToken, .text refreshToken⟩ expiresAt
  Program.log .info "playlist_gen.spotify.login" ("Logged in as Spotify user " ++ profile.id)
  return ⟨userId, profile.id, grant.accessToken, refreshToken, expiresAt⟩

end LabelPlaylists.Account
