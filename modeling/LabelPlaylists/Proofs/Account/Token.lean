import LabelPlaylists.Account.Service
import LabelPlaylists.Proofs.Library.Answer
import LabelPlaylists.Proofs.Program.Surroundings

namespace LabelPlaylists

open Spotify (Call Grant Schema Trouble)

-- What a reply of Spotify says, if it is an answer of the expected shape.
def heard (schema : Schema α) : Except Trouble Json → Option α
  | .ok body => (schema.read body).toOption
  | .error _ => none

-- What a call comes to by the reply to it.
def told (schema : Schema α) : Except Trouble Json → Except Failure α
  | .ok body       => (schema.read body).mapError (.unexpectedBody schema.name)
  | .error trouble => .error (.ofTrouble trouble)

theorem toOption_told {schema : Schema α} {reply : Except Trouble Json} :
    (told schema reply).toOption = heard schema reply := by
  cases reply
  case error   => rfl
  case ok body => cases h : schema.read body <;> simp [told, heard, h, Except.mapError, Except.toOption]

-- The grant that the token endpoint replies with, if it gives one.
def granted : Except String Grant.Answer → Option Grant
  | .ok a    =>
    if a.status < 400 ∨ 600 ≤ a.status then
      (Json.read? a.text).bind fun body => (Schema.grant.read body).toOption
    else none
  | .error _ => none

namespace Surroundings

variable {σ : Type} {S : Surroundings σ} {G : σ → Prop} {u : Int} {s s' s'' : σ}

-- A state as promised in which a user of the library is in session.
structure Serves (S : Surroundings σ) (G : σ → Prop) (u : Int) (s : σ) : Prop where
  good    : G s
  session : ∃ x, (S.scene s).session = some x ∧ x.userId = u
  sound   : (S.scene s).library.Sound
  user    : u ∈ (S.scene s).library.tables.users.map (·.id)

-- Nothing has changed but the tokens of users.
structure Idles (S : Surroundings σ) (G : σ → Prop) (u : Int) (s s' : σ) : Prop where
  serves : S.Serves G u s'
  tables : ∃ users, (S.scene s').library.tables = { (S.scene s).library.tables with users } ∧
    users.map (·.id) = (S.scene s).library.tables.users.map (·.id)
  calls  : (S.scene s').calls = (S.scene s).calls

theorem Idles.refl (h : S.Serves G u s) : S.Idles G u s s where
  serves := h
  tables := ⟨_, rfl, rfl⟩
  calls  := rfl

theorem Idles.trans (h : S.Idles G u s s') (h' : S.Idles G u s' s'') : S.Idles G u s s'' where
  serves := h'.serves
  tables := by
    have ⟨users, ht, hi⟩ := h.tables
    have ⟨users', ht', hi'⟩ := h'.tables
    rw [ht] at ht' hi'
    exact ⟨users', ht', hi'.trans hi⟩
  calls  := h'.calls.trans h.calls

-- A request that leaves the scene as it is.
theorem Idles.ask {r : Request} (hk : S.Keeps G) (h : S.Idles G u s s')
    (hs : S.scene (S.answer r s').2 = S.scene s') : S.Idles G u s (S.answer r s').2 :=
  h.trans
    { serves := ⟨hk _ _ h.serves.good, hs ▸ h.serves.session, hs ▸ h.serves.sound, hs ▸ h.serves.user⟩
      tables := hs ▸ ⟨_, rfl, rfl⟩
      calls  := by rw [hs] }

-- Tokens can always be renewed: the token endpoint grants new ones, and the calendar reaches as far as
-- they live.
structure Renews (S : Surroundings σ) (G : σ → Prop) : Prop where
  clock  : ∀ {s}, G s → (S.clock s).inUtc.InRange
  grant  : ∀ {s f}, G s → (granted (S.answer (.grant f) s).1).isSome
  expiry : ∀ {s s' f g}, G s → G s' → granted (S.answer (.grant f) s).1 = some g →
    (Session.expiry? (S.clock s').inUtc g.expiresIn).isSome

-- A failure while only tokens were at stake.
def Expires (S : Surroundings σ) (G : σ → Prop) (u : Int) (s s' : σ) : Prop :=
  ¬S.Renews G ∧ S.Idles G u s s'

variable {E : σ → Prop}

theorem leads_log (hk : S.Keeps G) {level : Log.Level} {logger message : String}
    (h : S.Idles G u s s') :
    S.Leads (Program.log level logger message) s' (fun _ => S.Idles G u s) E :=
  .ask <| .done <| h.ask hk S.log

theorem leads_session (hk : S.Keeps G) (h : S.Idles G u s s') :
    S.Leads Program.session s' (fun x s'' => x.userId = u ∧ S.Idles G u s s'') E := by
  have ⟨x, hx, hu⟩ := h.serves.session
  have ⟨hr, hs⟩ := Prod.mk.inj (S.session (s := s'))
  refine .ask ?_
  rw [hr, hx]
  exact .done ⟨hu, h.ask hk hs⟩

-- The time is that of a state that has been passed.
theorem leads_now (hk : S.Keeps G) (h : S.Idles G u s s') :
    S.Leads Program.now s' (fun m s'' => (∃ s₁, G s₁ ∧ m = (S.clock s₁).inUtc) ∧ S.Idles G u s s'')
      (S.Expires G u s) := by
  have ⟨hr, hs⟩ := Prod.mk.inj (S.now (s := s'))
  refine .ask ?_
  rw [hr]
  by_cases hc : (S.clock s').inUtc.InRange <;> simp only [hc, if_true, if_false]
  case pos => exact .done ⟨⟨s', h.serves.good, rfl⟩, h.ask hk hs⟩
  case neg => exact .fail ⟨fun hr => hc (hr.clock h.serves.good), h.ask hk hs⟩

theorem leads_requestGrant (hk : S.Keeps G) {f : Grant.Form} (h : S.Idles G u s s') :
    S.Leads (Account.requestGrant f) s'
      (fun g s'' => granted (S.answer (.grant f) s').1 = some g ∧ S.Idles G u s s'')
      (S.Expires G u s) := by
  have hi := h.ask hk (S.grant (g := f))
  have hn : granted (S.answer (.grant f) s').1 = none → ¬S.Renews G := by
    intro hn hr
    simpa [hn] using hr.grant (f := f) h.serves.good
  refine .ask ?_
  cases ha : (S.answer (.grant f) s').1 <;> rw [ha] at hn
  case error e => exact .fail ⟨hn rfl, hi⟩
  case ok a =>
    by_cases hs : a.status < 400 ∨ 600 ≤ a.status <;> simp only [hs, if_true, if_false]
    case neg =>
      refine (leads_log hk hi).bind fun hi => .fail ⟨hn ?_, hi⟩
      simp [granted, hs]
    case pos =>
      cases hj : Json.read? a.text <;> dsimp only
      case none => exact .fail ⟨hn (by simp [granted, hs, hj]), hi⟩
      case some body =>
        cases hg : Schema.grant.read body <;> dsimp only
        case error => exact .fail ⟨hn (by simp [granted, hs, hj, hg, Except.toOption]), hi⟩
        case ok g  => exact .done ⟨by simp [granted, hs, hj, hg, Except.toOption], hi⟩

theorem leads_expiry (hk : S.Keeps G) {lifetime : Int} (h : S.Idles G u s s')
    (hl : S.Renews G → ∀ {s}, G s → (Session.expiry? (S.clock s).inUtc lifetime).isSome) :
    S.Leads (Account.expiry lifetime) s' (fun _ => S.Idles G u s) (S.Expires G u s) := by
  refine (leads_now hk h).bind fun ⟨⟨s₁, hg, hm⟩, hi⟩ => ?_
  subst hm
  cases he : Session.expiry? (S.clock s₁).inUtc lifetime
  case some => exact .done hi
  case none => exact .fail ⟨fun hr => by simpa [he] using hl hr hg, hi⟩

theorem leads_setTokens (hk : S.Keeps G) (hu : Datum.IsStorable u) {access : String}
    {expiresAt : Moment} {refresh : Option String} (h : S.Idles G u s s') :
    S.Leads
      (Program.library (.setTokens (.integer u) (.text access) expiresAt (.ofOption refresh))) s'
      (fun _ => S.Idles G u s) (S.Expires G u s) := by
  have ⟨hr, hs⟩ := Prod.mk.inj (S.library (s := s')
    (c := .setTokens (.integer u) (.text access) expiresAt (.ofOption refresh)) nofun)
  refine .ask ?_
  rw [hr]
  rcases (S.scene s').library.perform_setTokens (S.clock s') access expiresAt refresh hu
    with ⟨hp, hn⟩ | ⟨l, hp, users, ht, hi⟩ <;> rw [hp] at hs ⊢
  case inl => exact .fail ⟨fun hr => hn (hr.clock h.serves.good), h.ask hk hs⟩
  case inr =>
    refine .done (h.trans ⟨⟨hk _ _ h.serves.good, ?_, ?_, ?_⟩, ⟨users, ?_⟩, ?_⟩) <;> rw [hs]
    · exact h.serves.session
    · exact congrArg Prod.snd hp ▸ h.serves.sound.perform
    · simpa [ht, hi] using h.serves.user
    · exact ⟨ht, hi⟩

theorem leads_refresh (hk : S.Keeps G) (hu : Datum.IsStorable u) (h : S.Idles G u s s') :
    S.Leads Account.refresh s' (fun _ => S.Idles G u s) (S.Expires G u s) := by
  refine (leads_session hk h).bind fun {x s₁} ⟨hx, h⟩ => ?_
  refine (leads_requestGrant hk h).bind fun {g _} ⟨hg, h'⟩ => ?_
  refine (leads_expiry hk h' fun hr _ hs => hr.expiry h.serves.good hs hg).bind fun {m _} h => ?_
  rw [hx]
  refine (leads_setTokens hk hu h).bind fun {_ s₂} h => ?_
  refine Leads.bind (P := fun _ => S.Idles G u s) (.ask <| .done <| h.trans ?_) fun h => leads_log hk h
  -- The session is still that of the user.
  have hs := S.setSession (s := s₂) (x := Account.renewed x g m)
  refine ⟨⟨hk _ _ h.serves.good, ?_, ?_, ?_⟩, ?_, ?_⟩ <;> rw [hs]
  · exact ⟨_, rfl, hx⟩
  · exact h.serves.sound
  · exact h.serves.user
  · exact ⟨_, rfl, rfl⟩

theorem leads_validToken (hk : S.Keeps G) (hu : Datum.IsStorable u) (h : S.Idles G u s s') :
    S.Leads Account.validToken s' (fun _ => S.Idles G u s) (S.Expires G u s) := by
  refine (leads_session hk h).bind fun {x _} ⟨_, h⟩ => (leads_now hk h).bind fun {m s₁} ⟨_, h⟩ => ?_
  have ht : ∀ {s₁}, S.Idles G u s s₁ →
      S.Leads (Program.session >>= fun x => pure x.accessToken) s₁ (fun _ => S.Idles G u s)
        (S.Expires G u s) :=
    fun h => (leads_session hk h).bind fun ⟨_, h⟩ => .done h
  split
  case isTrue  => exact (leads_log hk h).bind fun h => (leads_refresh hk hu h).bind fun h => ht h
  case isFalse => exact ht h

theorem Serves.call (hk : S.Keeps G) (token : String) (c : Call) (h : S.Serves G u s) :
    S.Serves G u (S.answer (.call token c) s).2 := by
  refine ⟨hk _ _ h.good, ?_, ?_, ?_⟩ <;> rw [S.call]
  · exact h.session
  · exact h.sound
  · exact h.user

-- A call is made once, with a token of the session, and its answer has the expected shape.
def Answers (S : Surroundings σ) (G : σ → Prop) (u : Int) (c : Call) (schema : Schema α) (a : Option α)
    (s s' : σ) : Prop :=
  ∃ token s₁, S.Idles G u s s₁ ∧ heard schema (S.answer (.call token c) s₁).1 = a ∧
    S.Idles G u (S.answer (.call token c) s₁).2 s'

theorem leads_execute (hk : S.Keeps G) {token : String} {c : Call} {schema : Schema α}
    (h : S.Idles G u s s') :
    S.Leads (Account.Service.execute token c schema) s' (fun a => S.Answers G u c schema (some a) s)
      (S.Answers G u c schema none s) := by
  have hi := Idles.refl (h.serves.call hk token c)
  refine .ask ?_
  cases ha : (S.answer (.call token c) s').1 <;> dsimp only
  case error trouble =>
    refine Leads.bind (P := fun _ => S.Idles G u (S.answer (.call token c) s').2) ?_
      fun hi => .fail ⟨token, s', h, by rw [ha]; rfl, hi⟩
    cases trouble
    case refused     => exact leads_log hk hi
    case unreachable => exact leads_log hk hi
    all_goals exact .done hi
  case ok body =>
    cases hb : schema.read body <;> dsimp only
    case error =>
      exact (leads_log hk hi).bind fun hi =>
        .fail ⟨token, s', h, by simp [ha, heard, hb, Except.toOption], hi⟩
    case ok a => exact .done ⟨token, s', h, by simp [ha, heard, hb, Except.toOption], hi⟩

theorem leads_call (hk : S.Keeps G) (hu : Datum.IsStorable u) {c : Call} {schema : Schema α}
    (h : S.Idles G u s s') :
    S.Leads (Account.Service.call c schema) s' (fun a => S.Answers G u c schema (some a) s)
      (fun s'' => S.Expires G u s s'' ∨ S.Answers G u c schema none s s'') :=
  ((leads_validToken hk hu h).mono id .inl).bind fun h => (leads_execute hk h).mono id .inr

end Surroundings

end LabelPlaylists
