import LabelPlaylists.Proofs.Account.Renewal
import LabelPlaylists.Proofs.Calendar.Moment

namespace LabelPlaylists

open Account (renewed)
open Spotify (Grant)

variable {σ : Type} {S : Surroundings σ} {x : Session} {s s' : σ} {es : List Exchange}

-- The session takes an empty refresh token for none.
theorem Account.renewed_refreshToken {g : Grant} {m : Moment} :
    (renewed x g m).refreshToken = g.refreshToken.getD x.refreshToken ↔
      ¬(x.refreshToken ≠ "" ∧ g.refreshToken = some "") := by
  unfold renewed
  cases hr : g.refreshToken
  case none => simp
  case some token =>
    by_cases ht : token = ""
    case pos => simp [ht]
    case neg => simp [ht]

-- A session and the stored user say the same about the access token and its expiry, and of the
-- refresh token as well unless a grant has come with an empty one.
theorem Surroundings.Runs.validToken_agrees {v : Library.User} {o : Except Failure String}
    (hx : (S.scene s).session = some x) (hv : (S.scene s).library.tables.user? x.userId = some v)
    (hs : Session.ofUser? v = some x) (h : S.Runs Account.validToken s es o s') :
    ∃ y w, (S.scene s').session = some y ∧ y.userId = x.userId ∧
      (S.scene s').library.tables.user? y.userId = some w ∧
      y.accessToken = w.accessToken ∧ Session.storedExpiry? w.expiresAt = some y.expiresAt ∧
      (y.refreshToken = w.refreshToken ↔
        ¬(x.refreshToken ≠ "" ∧ (∃ token, o = .ok token) ∧
          ∃ g ∈ grants es, g.refreshToken = some "")) := by
  have ⟨m, hm, he⟩ := Option.map_eq_some_iff.mp hs
  subst he
  rcases h.validToken_inv hx with ⟨hk, ho⟩ | ⟨g, m, ⟨hi, hz, now, t, n, ht, hn⟩, ho, hg⟩
  case inl =>
    rw [hk]
    refine ⟨_, v, hx, rfl, hv, rfl, hm, iff_of_true rfl ?_⟩
    rintro ⟨_, ⟨_, ho'⟩, g, hg, _⟩
    rcases ho with ⟨_, hn⟩ | ⟨_, he⟩
    case inl => rw [hn] at hg; cases hg
    case inr => cases ho'.symm.trans he
  case inr =>
    rw [hn]
    refine ⟨_, _, rfl, rfl, Library.Tables.user?_setTokens hv ht, rfl,
      Session.storedExpiry?_text hi hz, ?_⟩
    rw [ho, hg]
    simpa using Account.renewed_refreshToken

namespace Account.Sample

def user : Library.User :=
  ⟨1, "alice", none, "old", "refresh", "2024-01-01T00:00:00+00:00", "now", "now"⟩

def tables : Library.Tables where
  users    := [user]
  lastUser := 1

def emptied : String :=
  "\x7b\"access_token\": \"new\", \"expires_in\": 3600, \"refresh_token\": \"\"\x7d"

-- A user is in session whose token has expired, and the token endpoint is about to grant a new one with
-- an empty refresh token.
def world : Simulation.World where
  clock       := .ofDay ⟨2024, 6, 1⟩ 0 (some 0)
  disk        := {}
  base        := ⟨[], [], []⟩
  application := ⟨"client", "secret", 30⟩
  library     := ⟨"library", tables, tables, 0⟩
  grants      := [.ok ⟨200, emptied⟩]
  session     := Session.ofUser? user

end Account.Sample

open Account.Sample in
-- The library then has an empty refresh token, and the session keeps the old one.
theorem emptied_refreshToken_disagrees :
    ∃ es o w' y v, Simulation.World.surroundings.Runs Account.validToken world es o w' ∧
      w'.scene.session = some y ∧ w'.scene.library.tables.user? y.userId = some v ∧
      y.accessToken = v.accessToken ∧ y.refreshToken ≠ v.refreshToken := by
  have h := Simulation.World.surroundings.runs_trace Account.validToken world
  have hx : world.session = some ⟨1, "alice", "old", "refresh", .ofDay ⟨2024, 1, 1⟩ 0 (some 0)⟩ := by
    decide +kernel
  have ho : (Simulation.World.surroundings.trace Account.validToken world).2.1.toOption = some "new" := by
    decide +kernel
  have hg : ⟨"new", 3600, some ""⟩ ∈ grants (Simulation.World.surroundings.trace Account.validToken world).1 := by
    decide +kernel
  have ⟨y, v, hy, _, hv, ha, _, hr⟩ := h.validToken_agrees (v := user) hx rfl hx
  refine ⟨_, _, _, y, v, h, hy, hv, ha, fun he => hr.mp he ⟨by decide, ⟨"new", ?_⟩, _, hg, rfl⟩⟩
  cases hp : (Simulation.World.surroundings.trace Account.validToken world).2.1 <;> rw [hp] at ho <;> cases ho
  rfl

end LabelPlaylists
