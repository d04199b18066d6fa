import LabelPlaylists.Account.Login
import LabelPlaylists.Proofs.Account.Agreement
import LabelPlaylists.Proofs.Account.Service

namespace LabelPlaylists

open Spotify (Call Grant Profile Schema)

namespace Library

variable {t t' : Tables} {name access refresh expiresAt now : String} {avatar : Option String} {n : Nat}

-- A row is the only one of its key.
theorem filter_eq_singleton [DecidableEq β] {rows : List α} {key : α → β} {row : α}
    (h : (rows.map key).Nodup) (hr : row ∈ rows) : rows.filter (key · = key row) = [row] := by
  induction rows
  case nil => cases hr
  case cons a rest hi =>
    rw [List.map_cons, List.nodup_cons] at h
    rcases List.mem_cons.mp hr with he | hr
    case inl =>
      have hn : rest.filter (key · = key row) = [] := by
        refine List.filter_eq_nil_iff.mpr fun b hb hk => h.left ?_
        rw [← he, ← of_decide_eq_true hk]
        exact List.mem_map_of_mem hb
      rw [List.filter_cons_of_pos (by simp [he]), hn, he]
    case inr =>
      have hk : key a ≠ key row := fun hk => h.left (hk ▸ List.mem_map_of_mem hr)
      rw [List.filter_cons_of_neg (by simpa using hk), hi h.right hr]

-- The user of a Spotify id comes to be as given. There is only one, all others stay as they are, and
-- numbers stay with those who have them.
structure Tables.Enters (t : Tables) (v : User) (t' : Tables) : Prop where
  one    : t'.users.filter (·.spotifyId = v.spotifyId) = [v]
  others : t'.users.filter (·.spotifyId ≠ v.spotifyId) = t.users.filter (·.spotifyId ≠ v.spotifyId)
  known  : ∀ w ∈ t.users, w.spotifyId = v.spotifyId → v.id = w.id ∧ v.createdAt = w.createdAt
  fresh  : (∀ w ∈ t.users, w.spotifyId ≠ v.spotifyId) → v.id ∉ t.users.map (·.id)
  rest   : t' = { t with users := t'.users, lastUser := t'.lastUser }

-- Who is found by the Spotify id is the one.
theorem Tables.Enters.userNamed? {v : User} (h : t.Enters v t') : t'.userNamed? v.spotifyId = some v := by
  rw [Tables.userNamed?, ← List.head?_filter, h.one]
  rfl

-- A user is put into the tables.
theorem Tables.putUser_inv (hs : t.Sound)
    (h : t.putUser ⟨.text name, .ofOption avatar, .text access, .text refresh⟩ expiresAt now = .ok (t', n)) :
    ∃ id createdAt, t.Enters ⟨id, name, avatar, access, refresh, expiresAt, createdAt, now⟩ t' := by
  have ha : (Datum.ofOption avatar).text? = avatar := by cases avatar <;> rfl
  simp only [putUser, bind_eq_ok_iff, required_eq_ok_iff, ha] at h
  obtain ⟨_, hn, _, hac, _, hr, h⟩ := h
  cases hn
  cases hac
  cases hr
  by_cases hk : (t.userNamed? name).isSome
  case pos =>
    obtain ⟨w, hw, rfl⟩ := List.mem_map.mp (userNamed?_isSome_iff.mp hk)
    let f (u : User) : User :=
      if u.spotifyId = w.spotifyId then
        { u with avatarUrl := avatar, accessToken := access, refreshToken := refresh, expiresAt, updatedAt := now }
      else u
    have hf (u : User) : (f u).spotifyId = u.spotifyId := by
      dsimp only [f]
      split <;> rfl
    have ht : t' = { t with users := t.users.map f, lastUser := t.lastUser + 1 } := by
      rw [if_pos hk] at h
      cases h
      rfl
    have hw' : f w = ⟨w.id, w.spotifyId, avatar, access, refresh, expiresAt, w.createdAt, now⟩ := if_pos rfl
    rw [ht]
    refine ⟨w.id, w.createdAt, ?_, ?_, fun u hu hn => ?_, fun hn => absurd rfl (hn w hw), rfl⟩ <;> dsimp only
    case refine_1 =>
      simp only [List.filter_map, Function.comp_def, hf]
      rw [filter_eq_singleton hs.userNames hw, List.map_singleton, hw']
    case refine_2 =>
      simp only [List.filter_map, Function.comp_def, hf]
      refine (List.map_congr_left fun u hu => ?_).trans (List.map_id' _)
      exact if_neg (by simpa using (List.mem_filter.mp hu).right)
    case refine_3 =>
      cases List.inj_on_of_nodup_map hs.userNames hu hw hn
      exact ⟨rfl, rfl⟩
  case neg =>
    have hn : ∀ w ∈ t.users, w.spotifyId ≠ name := fun w hw hn =>
      hk (userNamed?_isSome_iff.mpr (List.mem_map.mpr ⟨w, hw, hn⟩))
    rw [if_neg hk] at h
    cases h
    refine ⟨t.lastUser + 1, now, ?_, ?_, fun w hw he => absurd he (hn w hw), fun _ => ?_, rfl⟩ <;> dsimp only
    case refine_1 =>
      rw [List.filter_append, List.filter_eq_nil_iff.mpr (by simpa using hn)]
      simp
    case refine_2 => simp
    case refine_3 => exact Sound.succ_notMem hs.userNumbers

-- Texts are put into the library as a user for good, unless the clock cannot be read.
theorem Store.perform_putUser_cases (s : Store) (now expiresAt : Moment) :
    (∃ e, s.perform now (.putUser ⟨.text name, .ofOption avatar, .text access, .text refresh⟩ expiresAt)
      = (.error e, s)) ∨
    ∃ t n, s.tables.putUser ⟨.text name, .ofOption avatar, .text access, .text refresh⟩ expiresAt.text
        now.inUtc.text = .ok (t, n) ∧
      s.perform now (.putUser ⟨.text name, .ofOption avatar, .text access, .text refresh⟩ expiresAt)
        = (.ok (((t.userNamed? name).map (·.id)).getD 0),
          { s with saved := t, tables := t, changes := s.changes + n }) := by
  by_cases hn : now.inUtc.InRange
  case neg => exact .inl ⟨.timeOutOfRange, by simp [perform, work, Work.stamp, hn, bind, Work.bind]⟩
  case pos =>
    have hs : Work.stamp now s = (.ok now.inUtc.text, s) := if_pos hn
    have hb : Work.bound (userValues ⟨.text name, .ofOption avatar, .text access, .text refresh⟩) s = (.ok (), s) :=
      Work.bound_ok (by simp [userValues]) s
    obtain ⟨t, n, ht⟩ : ∃ t n, s.tables.putUser ⟨.text name, .ofOption avatar, .text access, .text refresh⟩
        expiresAt.text now.inUtc.text = .ok (t, n) := ⟨_, _, rfl⟩
    refine .inr ⟨t, n, ht, perform_ok ?_⟩
    rw [work, Work.bind_ok hs, Work.bind_ok hb, Work.bind_ok (Work.change_ok ht)]
    rfl

end Library

-- A grant that has been given is the reply of the token endpoint to a form.
theorem mem_of_mem_grants {es : List Exchange} {g : Grant} (h : g ∈ grants es) :
    ∃ f reply, (⟨.grant f, reply⟩ : Exchange) ∈ es ∧ granted reply = some g := by
  have ⟨e, he, hg⟩ := List.mem_filterMap.mp h
  obtain ⟨r, reply⟩ := e
  cases r
  case grant => exact ⟨_, reply, he, hg⟩
  all_goals cases hg

namespace Surroundings.Runs

variable {σ : Type} {S : Surroundings σ} {s s' : σ} {es : List Exchange} {code redirectUri : String}

-- The expiry is counted from the time that the clock shows.
theorem expiry_ok_inv {lifetime : Int} {m : Moment} (h : S.Runs (Account.expiry lifetime) s es (.ok m) s') :
    ∃ now, (⟨.now, some now⟩ : Exchange) ∈ es ∧ Session.expiry? now lifetime = some m := by
  have ⟨now, _, before, _, he, hn, h⟩ := h.bind_ok_inv
  have hnow : (⟨.now, some now⟩ : Exchange) ∈ before := by
    obtain ⟨_, hb, hn⟩ := hn.ask_inv
    cases hr : (S.answer .now s).1 <;> rw [hr] at hb hn
    case none => cases hn.fail_inv.right.left
    case some =>
      cases hn.done_inv.right.left
      exact hb ▸ List.mem_cons_self
  refine ⟨now, he ▸ List.mem_append_left _ hnow, ?_⟩
  cases hm : Session.expiry? now lifetime <;> simp only [hm] at h
  case none => cases h.fail_inv.right.left
  case some => cases h.done_inv.right.left; rfl

-- A grant for a code is of use only with a refresh token.
theorem exchangeCode_inv {o : Except Failure (Grant × String)}
    (h : S.Runs (Account.exchangeCode code redirectUri) s es o s') :
    S.scene s' = S.scene s ∧
      ((∃ e, o = .error e) ∨ ∃ g token reply, o = .ok (g, token) ∧
        (⟨.grant (.ofCode code redirectUri), reply⟩ : Exchange) ∈ es ∧ granted reply = some g ∧
        g.refreshToken = some token ∧ token ≠ "") := by
  rcases h.bind_inv with ⟨e, ho, h₁⟩ | ⟨g, s₁, before, rest, he, h₁, h⟩
  case inl => exact ⟨h₁.requestGrant_inv.left, .inl ⟨e, ho⟩⟩
  have ⟨hs, hg⟩ := h₁.requestGrant_inv
  rcases hg with ⟨_, ho₁, hg⟩ | ⟨_, ho₁, _⟩ <;> cases ho₁
  have hf : ∀ e ∈ before, ∀ f, e.request = .grant f → f = .ofCode code redirectUri :=
    h₁.forall_mem (P := fun r => ∀ f, r = .grant f → f = .ofCode code redirectUri)
      (Account.asks_requestGrant (fun f hf => by cases hf; rfl) fun _ _ _ _ hf => by cases hf)
  have ⟨f, reply, hm, hr⟩ := mem_of_mem_grants (hg ▸ List.mem_singleton_self g)
  cases hf _ hm f rfl
  cases ht : g.refreshToken <;> simp only [ht] at h
  case none =>
    have ⟨_, ho, hs'⟩ := h.fail_inv
    exact ⟨hs' ▸ hs, .inl ⟨_, ho⟩⟩
  case some token =>
    split at h
    case isTrue =>
      have ⟨_, ho, hs'⟩ := h.fail_inv
      exact ⟨hs' ▸ hs, .inl ⟨_, ho⟩⟩
    case isFalse hn =>
      have ⟨_, ho, hs'⟩ := h.done_inv
      exact ⟨hs' ▸ hs, .inr ⟨g, token, reply, ho, he ▸ List.mem_append_left _ hm, hr, ht, hn⟩⟩

-- A call that comes to something has been answered by it.
theorem execute_ok_inv {token : String} {c : Call} {schema : Schema α} {a : α}
    (h : S.Runs (Account.Service.execute token c schema) s es (.ok a) s') :
    ∃ reply, (⟨.call token c, reply⟩ : Exchange) ∈ es ∧ heard schema reply = some a :=
  have ⟨he, hr⟩ := h.execute_ok_eq
  ⟨_, he ▸ List.mem_singleton_self _, hr⟩

-- A user is put into the library for good, or the library stays as it is.
theorem putUser_inv {name access refresh : String} {avatar : Option String} {m : Moment} {o : Except Failure Int}
    (hs : (S.scene s).library.tables.Sound)
    (h : S.Runs
      (Program.library (.putUser ⟨.text name, .ofOption avatar, .text access, .text refresh⟩ m)) s es o s') :
    ((S.scene s').library = (S.scene s).library ∧ ∃ e, o = .error e) ∨
      ∃ id createdAt now, o = .ok id ∧
        (S.scene s).library.tables.Enters ⟨id, name, avatar, access, refresh, m.text, createdAt, now⟩
          (S.scene s').library.tables ∧
        (S.scene s').library.saved = (S.scene s').library.tables := by
  have ⟨_, ho, hk⟩ := h.library_inv fun _ _ hc => by cases hc
  rcases (S.scene s).library.perform_putUser_cases (S.clock s) m with ⟨e, hw⟩ | ⟨t, n, ht, hw⟩ <;> rw [hw] at ho hk
  case inl => exact .inl ⟨congrArg Scene.library hk, _, ho⟩
  case inr =>
    have ⟨id, createdAt, hv⟩ := Library.Tables.putUser_inv hs ht
    rw [hv.userNamed?] at ho
    rw [hk]
    exact .inr ⟨id, createdAt, _, ho, hv, rfl⟩

end Surroundings.Runs

-- How a session has come about: by a grant for the code, by the profile that was asked for with its access
-- token, and by a time within the run that the expiry is counted from.
structure Exchanged (code redirectUri : String) (es : List Exchange) (p : Profile) (y : Session) : Prop where
  name    : y.spotifyId = p.id
  tokens  : ∃ lifetime reply now, (⟨.grant (.ofCode code redirectUri), reply⟩ : Exchange) ∈ es ∧
    granted reply = some ⟨y.accessToken, lifetime, some y.refreshToken⟩ ∧ y.refreshToken ≠ "" ∧
    (⟨.now, some now⟩ : Exchange) ∈ es ∧ Session.expiry? now lifetime = some y.expiresAt
  profile : ∃ reply, (⟨.call y.accessToken .profile, reply⟩ : Exchange) ∈ es ∧ heard .profile reply = some p

variable {σ : Type} {S : Surroundings σ} {s s' : σ} {es : List Exchange} {code redirectUri : String}

-- A login that fails leaves the library as it was. One that comes to a session has stored it for good, as the
-- only user of the profile's id, and has changed nothing else.
theorem Surroundings.Runs.login_atomic {o : Except Failure Session} (hs : (S.scene s).library.tables.Sound)
    (h : S.Runs (Account.login code redirectUri) s es o s') :
    (∃ e, o = .error e ∧ (S.scene s').library = (S.scene s).library) ∨
    ∃ y p v, o = .ok y ∧ Exchanged code redirectUri es p y ∧
      v.spotifyId = p.id ∧ v.avatarUrl = p.images.head?.map (·.url) ∧ Session.ofUser? v = some y ∧
      (S.scene s).library.tables.Enters v (S.scene s').library.tables ∧
      (S.scene s').library.saved = (S.scene s').library.tables := by
  rcases h.bind_inv with ⟨e, ho, h₁⟩ | ⟨_, s₁, es₁, r₁, he₁, h₁, h⟩
  case inl => exact .inl ⟨e, ho, congrArg Scene.library h₁.exchangeCode_inv.left⟩
  have ⟨hk₁, hg⟩ := h₁.exchangeCode_inv
  rcases hg with ⟨_, ho₁⟩ | ⟨⟨access, lifetime, _⟩, token, reply, ho₁, hm₁, hr₁, ht, hn⟩ <;> cases ho₁
  cases ht
  rcases h.bind_inv with ⟨e, ho, h₂⟩ | ⟨m, s₂, es₂, r₂, he₂, h₂, h⟩
  case inl => exact .inl ⟨e, ho, congrArg Scene.library (h₂.expiry_inv.left.trans hk₁)⟩
  have ⟨hk₂, _, hm⟩ := h₂.expiry_inv
  have ⟨now, hm₂, hnow⟩ := h₂.expiry_ok_inv
  have hk := congrArg Scene.library (hk₂.trans hk₁)
  rcases h.bind_inv with ⟨e, ho, h₃⟩ | ⟨p, s₃, es₃, r₃, he₃, h₃, h⟩
  case inl => exact .inl ⟨e, ho, (congrArg Scene.library h₃.execute_inv.right.left).trans hk⟩
  have ⟨reply₃, hm₃, hp⟩ := h₃.execute_ok_inv
  have ⟨_, hk₃, _⟩ := h₃.execute_inv
  have hk : (S.scene s₃).library = (S.scene s).library := (congrArg Scene.library hk₃).trans hk
  rcases h.bind_inv with ⟨e, ho, h₄⟩ | ⟨id, s₄, es₄, r₄, he₄, h₄, h⟩ <;>
    rcases h₄.putUser_inv (hk ▸ hs) with ⟨hk₄, e, ho₄⟩ | ⟨id, createdAt, now', ho₄, hv, hsaved⟩ <;> cases ho₄
  case inl.inl.refl => exact .inl ⟨e, ho, hk₄.trans hk⟩
  have ⟨_, _, _, _, hk₅, h⟩ := h.log_bind_inv
  have ⟨_, ho, hk₆⟩ := h.done_inv
  rw [hk, ← hk₅, ← hk₆] at hv
  rw [← hk₅, ← hk₆] at hsaved
  have hy : Session.ofUser? ⟨id, p.id, p.images.head?.map (·.url), access, token, m.text, createdAt, now'⟩
      = some ⟨id, p.id, access, token, m⟩ := by
    rcases hm with ⟨_, hm, hi, hz⟩ | ⟨_, hm⟩ <;> cases hm
    rw [Session.ofUser?, Session.storedExpiry?_text hi hz]
    rfl
  have he : Exchanged code redirectUri es p ⟨id, p.id, access, token, m⟩ := by
    refine ⟨rfl, ⟨lifetime, reply, now, ?_, hr₁, hn, ?_, hnow⟩, reply₃, ?_, hp⟩
    case refine_1 => simp [he₁, hm₁]
    case refine_2 => simp [he₁, he₂, hm₂]
    case refine_3 => simp [he₁, he₂, he₃, hm₃]
  exact .inr ⟨_, p, _, ho, he, rfl, rfl, hy, hv, hsaved⟩

namespace Account.Sample

theorem tables_sound : tables.Sound := by
  constructor <;> decide

-- The token endpoint is about to grant tokens that are of use.
def granting : Simulation.World :=
  { world with
    grants := [.ok ⟨200, "\x7b\"access_token\": \"new\", \"expires_in\": 3600, \"refresh_token\": \"next\"\x7d"⟩] }

end Account.Sample

open Account.Sample Simulation in
-- Alice logs in again and keeps her number. With an empty refresh token the login fails, and the library is as
-- it was.
theorem login_atomic_alice :
    (∃ es y v w, World.surroundings.Runs (Account.login "code" "uri") granting es (.ok y) w ∧
      Session.ofUser? v = some y ∧ w.library.tables.users.filter (·.spotifyId = v.spotifyId) = [v] ∧
      w.library.tables.users.map (fun u => (u.id, u.spotifyId, u.avatarUrl, u.accessToken))
        = [(1, "alice", some "https://img/alice.jpg", "new")]) ∧
    ∃ es e w, World.surroundings.Runs (Account.login "code" "uri") world es (.error e) w ∧
      w.library = world.library := by
  have hg := World.surroundings.runs_trace (Account.login "code" "uri") granting
  have hw := World.surroundings.runs_trace (Account.login "code" "uri") world
  have hok : (World.surroundings.trace (Account.login "code" "uri") granting).2.1.toOption.isSome ∧
      (World.surroundings.trace (Account.login "code" "uri") granting).2.2.library.tables.users.map
        (fun u => (u.id, u.spotifyId, u.avatarUrl, u.accessToken))
          = [(1, "alice", some "https://img/alice.jpg", "new")] := by
    decide +kernel
  have herror : (World.surroundings.trace (Account.login "code" "uri") world).2.1.toOption.isSome = false := by
    decide +kernel
  -- From here on it does not matter what is exchanged.
  generalize World.surroundings.trace (Account.login "code" "uri") granting = r at hg hok
  generalize World.surroundings.trace (Account.login "code" "uri") world = r' at hw herror
  have ⟨hok, hu⟩ := hok
  constructor
  case left =>
    rcases hg.login_atomic tables_sound with ⟨e, he, _⟩ | ⟨y, p, v, ho, _, _, _, hy, hv, _⟩
    case inl =>
      rw [he] at hok
      cases hok
    case inr => exact ⟨_, y, v, _, ho ▸ hg, hy, hv.one, hu⟩
  case right =>
    rcases hw.login_atomic tables_sound with ⟨e, he, hk⟩ | ⟨y, p, v, ho, _⟩
    case inl => exact ⟨_, e, _, he ▸ hw, hk⟩
    case inr =>
      rw [ho] at herror
      cases herror

end LabelPlaylists
