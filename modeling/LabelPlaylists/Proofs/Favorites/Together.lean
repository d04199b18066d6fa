import LabelPlaylists.Proofs.Account.Service
import LabelPlaylists.Proofs.Favorites.Loop
import LabelPlaylists.Proofs.Library.Append
import LabelPlaylists.Proofs.Program.Interleaved

namespace LabelPlaylists

-- The operations that a program has asked for, and those of them that were answered.

def Asked (c : Library.Command) (es : List Exchange) : Prop := ∃ reply, ⟨.library c, reply⟩ ∈ es

def Answered (c : Library.Command) (es : List Exchange) : Prop := ∃ a, ⟨.library c, .ok a⟩ ∈ es

-- Requests that add no track, and of those the ones that do not look tracks up either.

def Request.IsPlain : Request → Prop
  | .library c => c.IsCareful ∧ ¬c.IsAddTrack
  | _          => True

def Request.IsCalm : Request → Prop
  | .library (.knownTracks ..) => False
  | r                          => r.IsPlain

theorem Request.IsCalm.isPlain {r : Request} (h : r.IsCalm) : r.IsPlain := by
  unfold IsCalm at h
  split at h
  case h_1 => exact h.elim
  case h_2 => exact h

theorem Request.IsAside.isCalm {r : Request} (h : r.IsAside) : r.IsCalm := by
  cases r <;> try exact h.elim
  case library c => cases c <;> first | exact h.elim | exact ⟨trivial, id⟩
  all_goals exact trivial

namespace Favorites

open Account (requestGrant)
open Library (Tables)
open Spotify (Call Grant SavedTrack Schema)

-- Nothing that is asked of others during pulls of a user ever fails: tokens can be renewed, and Spotify
-- answers with the favorites that lie in a window, and with an artist for every id.
structure Delivering (O : Outside) (u : Int) (favorites : List SavedTrack) : Prop where
  clock     : ∀ {m}, O.times m → m.inUtc.InRange
  session   : ∀ {x}, O.replies .session x → ∃ y, x = some y ∧ y.userId = u
  grant     : ∀ {f x}, O.replies (.grant f) x → (granted x).isSome
  expiry    : ∀ {f x g m}, O.replies (.grant f) x → granted x = some g → O.times m →
    (Session.expiry? m.inUtc g.expiresIn).isSome
  favorites : ∀ {token x} {offset limit : Nat}, O.replies (.call token (.savedTracks limit offset)) x →
    heard Schema.savedTracks x = some ⟨(favorites.drop offset).take limit⟩
  artists   : ∀ {token ids x}, O.replies (.call token (.artists ids)) x →
    ∃ found, heard Schema.artists x = some found ∧ ids ⊆ found.artists.map (·.id)

variable {ι : Type} {O : Outside} {i j : ι} {w w' w'' : Shared ι}
variable {u : Int} {favorites : List SavedTrack} {t : Tables} {n : Nat} {x : String}

-- A program has asked for a track of the user to be added.
def AsksFor (u : Int) (x : String) (es : List Exchange) : Prop := ∃ c, c.Adds u x ∧ Asked c es

def Adds (u : Int) (x : String) (es : List Exchange) : Prop := ∃ c, c.Adds u x ∧ Answered c es

-- A full page has been looked up, and none of its tracks was there.
def FindsNew (u : Int) (favorites : List SavedTrack) (n : Nat) (es : List Exchange) : Prop :=
  (page favorites n).length = limit n ∧ ∃ known : List String,
    ⟨.library (.knownTracks (.integer u) ((page favorites n).map fun i => .text i.track.id)), .ok known⟩ ∈ es ∧
    ∀ i ∈ page favorites n, i.track.id ∉ known

-- What one of the programs can rely on later: nothing is taken away, and all tracks that have come
-- in addition have been asked for by others. It has itself asked for nothing of importance.
structure Later (u : Int) (i : ι) (w w' : Shared ι) : Prop where
  own    : ∀ e ∈ w'.past i, e ∈ w.past i ∨ e.request.IsCalm
  past   : ∀ j, w.past j ⊆ w'.past j
  grows  : w.library.tables.Grows w'.library.tables
  gained : ∀ x, (u, x) ∈ w'.library.tables.tracks.map (fun r => (r.userId, r.spotifyId)) →
    (u, x) ∈ w.library.tables.tracks.map (fun r => (r.userId, r.spotifyId)) ∨
      ∃ j ≠ i, AsksFor u x (w'.past j)

-- What holds at all times while pulls of a user are run on tables as given.
structure Valid (u : Int) (favorites : List SavedTrack) (t : Tables) (w : Shared ι) : Prop where
  saved : w.library.saved = w.library.tables
  grows : t.Grows w.library.tables
  sound : w.library.tables.Sound
  user  : u ∈ w.library.tables.users.map (·.id)
  room  : w.library.tables.lastTrack + (fresh w.library.tables u favorites).length
    ≤ t.lastTrack + favorites.length
  -- Of a page that is entirely new nothing is stored before it has been found to be new.
  found : ∀ n, EntirelyNew t u favorites n → ∀ i ∈ page favorites n, Stores w.library.tables u i →
    ∃ j, FindsNew u favorites n (w.past j)
  added : ∀ j x, Adds u x (w.past j) →
    (u, x) ∈ w.library.tables.tracks.map fun r => (r.userId, r.spotifyId)
  once  : ∀ i j x, Adds u x (w.past i) → Adds u x (w.past j) → i = j

theorem AsksFor.mono {es es' : List Exchange} (h : AsksFor u x es) (hs : es ⊆ es') : AsksFor u x es' :=
  have ⟨c, hc, reply, he⟩ := h
  ⟨c, hc, reply, hs he⟩

theorem FindsNew.mono {es es' : List Exchange} (h : FindsNew u favorites n es) (hs : es ⊆ es') :
    FindsNew u favorites n es' :=
  have ⟨hl, known, he, hn⟩ := h
  ⟨hl, known, hs he, hn⟩

namespace Later

theorem refl : Later u i w w :=
  ⟨fun _ h => .inl h, fun _ => List.Subset.refl _, .refl, fun _ h => .inl h⟩

theorem trans (h : Later u i w w') (h' : Later u i w' w'') : Later u i w w'' where
  own e he    := (h'.own e he).elim (h.own e) .inr
  past j      := List.Subset.trans (h.past j) (h'.past j)
  grows       := h.grows.trans h'.grows
  gained x hx := by
    rcases h'.gained x hx with hx | hx
    case inr => exact .inr hx
    case inl => exact (h.gained x hx).imp_right fun ⟨j, hj, hx⟩ => ⟨j, hj, hx.mono (h'.past j)⟩

variable [DecidableEq ι] {r : Request} {reply : r.Reply}

theorem grows_of_answers (hs : w.library.saved = w.library.tables) (h : w.Answers O j r reply w') :
    w.library.tables.Grows w'.library.tables := by
  cases h
  case library => exact Library.Store.perform_grows hs
  case now     => exact .refl
  case other   => exact .refl

theorem gained_of_answers (hs : w.library.saved = w.library.tables) (h : w.Answers O j r reply w')
    (hx : (u, x) ∈ w'.library.tables.tracks.map fun r => (r.userId, r.spotifyId)) :
    (u, x) ∈ w.library.tables.tracks.map (fun r => (r.userId, r.spotifyId)) ∨
      ∃ c, c.Adds u x ∧ r = .library c := by
  cases h
  case library c _ => exact (Library.Store.perform_mem_names hs hx).imp_right fun hc => ⟨c, hc, rfl⟩
  case now         => exact .inl hx
  case other       => exact .inl hx

-- Others may ask for whatever they like.
theorem of_others (hj : j ≠ i) (hs : w.library.saved = w.library.tables) (h : w.Answers O j r reply w') :
    Later u i w w' where
  own e he    := .inl (h.past_of_ne (Ne.symm hj) ▸ he)
  past        := h.past_subset
  grows       := grows_of_answers hs h
  gained x hx := by
    refine (gained_of_answers hs h hx).imp_right fun ⟨c, hc, hr⟩ => ⟨j, hj, c, hc, ?_⟩
    subst hr
    exact ⟨reply, h.mem_past_iff.mpr (.inr rfl)⟩

theorem of_calm (hr : r.IsCalm) (hs : w.library.saved = w.library.tables) (h : w.Answers O i r reply w') :
    Later u i w w' where
  own e he    := (h.mem_past_iff.mp he).imp_right fun he => by rw [he]; exact hr
  past        := h.past_subset
  grows       := grows_of_answers hs h
  gained x hx := by
    refine (gained_of_answers hs h hx).imp_right fun ⟨c, hc, hr'⟩ => ?_
    subst hr'
    exact absurd hc.isAddTrack hr.isPlain.right

end Later

variable [DecidableEq ι]

-- The terms on which a user's favorites are pulled by several at once.
def sharing (ι : Type) [DecidableEq ι] (O : Outside) (u : Int) (favorites : List SavedTrack) (t : Tables) :
    Terms ι O where
  holds     := Valid u favorites t
  meanwhile := Later u
  refl      := .refl
  trans     := .trans
  others    := fun hj hv h => .of_others hj hv.saved h

omit [DecidableEq ι] in
theorem Valid.storable (hv : Valid u favorites t w) (hroom : t.lastTrack + favorites.length < 2 ^ 63) :
    Datum.IsStorable w.library.tables.lastTrack := by
  have := hv.room
  have := hv.sound.counters
  unfold Datum.IsStorable
  omega

-- What holds at all times holds as long as no tracks are added.
omit [DecidableEq ι] in
theorem Valid.of_same (hv : Valid u favorites t w) (hg : w.library.tables.Grows w'.library.tables)
    (ht : w'.library.tables.tracks = w.library.tables.tracks)
    (hl : w'.library.tables.lastTrack = w.library.tables.lastTrack) (hs : w'.library.tables.Sound)
    (hsv : w'.library.saved = w'.library.tables) (hp : ∀ j, w.past j ⊆ w'.past j)
    (ha : ∀ j x, Adds u x (w'.past j) → Adds u x (w.past j)) : Valid u favorites t w' := by
  have hstores : ∀ i, Stores w'.library.tables u i ↔ Stores w.library.tables u i := fun i => by
    rw [Stores, ht, Stores]
  constructor
  case saved => exact hsv
  case grows => exact hv.grows.trans hg
  case sound => exact hs
  case user  => exact hg.user hv.user
  case room  => simpa only [hl, fresh, hstores] using hv.room
  case found =>
    intro n hn k hk hk'
    obtain ⟨j, hj⟩ := hv.found n hn k hk ((hstores k).mp hk')
    exact ⟨j, hj.mono (hp j)⟩
  case added => exact fun j x hx => ht ▸ hv.added j x (ha j x hx)
  case once  => exact fun i j x hi hj => hv.once i j x (ha i x hi) (ha j x hj)

-- A request that adds no track changes nothing of what holds at all times.
theorem Valid.answers {r : Request} {reply : r.Reply} (hv : Valid u favorites t w)
    (hroom : t.lastTrack + favorites.length < 2 ^ 63) (hr : r.IsPlain) (h : w.Answers O i r reply w') :
    Valid u favorites t w' := by
  have ⟨htracks, hlast, hsound, hsaved⟩ : w'.library.tables.tracks = w.library.tables.tracks ∧
      w'.library.tables.lastTrack = w.library.tables.lastTrack ∧ w'.library.tables.Sound ∧
      w'.library.saved = w'.library.tables := by
    cases h
    case now   => exact ⟨rfl, rfl, hv.sound, hv.saved⟩
    case other => exact ⟨rfl, rfl, hv.sound, hv.saved⟩
    case library m c _ =>
      have ⟨ht, hl⟩ := Library.Store.perform_tracks_eq (m := m) hv.saved hr.right
      have hs : w.library.Sound := ⟨hv.sound, hv.saved ▸ hv.sound⟩
      have ho : (w.library.perform m c).2.Orderly := Library.Store.Orderly.perform hr.left (.inl hv.saved)
      exact ⟨ht, hl, hs.perform.tables, ho.resolve_right fun hn => hn (by rw [hl]; exact hv.storable hroom)⟩
  refine hv.of_same (Later.grows_of_answers hv.saved h) htracks hlast hsound hsaved
    h.past_subset fun j x ⟨c, hc, a, he⟩ => ⟨c, hc, a, ?_⟩
  by_cases hj : j = i
  case neg => exact h.past_of_ne hj ▸ he
  case pos =>
    subst hj
    refine (h.mem_past_iff.mp he).resolve_right fun he => ?_
    cases he
    exact hr.right hc.isAddTrack

section

variable {P : α → Shared ι → Prop} {E : Failure → Shared ι → Prop}
variable (hroom : t.lastTrack + favorites.length < 2 ^ 63)
include hroom

theorem copes_calm {r : Request} {next : r.Reply → Program α} (hr : r.IsCalm) (h : Later u i w w')
    (hn : ∀ {w₁ reply w₂}, Valid u favorites t w₁ → Later u i w w₁ → w₁.Answers O i r reply w₂ →
      Later u i w w₂ → (sharing ι O u favorites t).Copes i (next reply) w₂ P E) :
    (sharing ι O u favorites t).Copes i (.ask r next) w' P E := by
  intro w₁ reply w₂ hm hv ha
  have hm : Later u i w w₁ := h.trans hm
  exact ⟨hv.answers hroom hr.isPlain ha, hn hv hm ha (hm.trans (.of_calm hr hv.saved ha))⟩

theorem copes_log {level : Log.Level} {logger message : String} (h : Later u i w w') :
    (sharing ι O u favorites t).Copes i (Program.log level logger message) w' (fun _ => Later u i w) E :=
  copes_calm hroom trivial h fun _ _ _ h _ hm _ => h.trans hm

variable (hd : Delivering O u favorites)
include hd

theorem copes_session (h : Later u i w w') :
    (sharing ι O u favorites t).Copes i Program.session w'
      (fun y w'' => y.userId = u ∧ Later u i w w'') E := by
  refine copes_calm hroom trivial h fun _ _ ha h => ?_
  have ⟨y, hx, hy⟩ := hd.session (ha.other_inv trivial).left
  subst hx
  exact fun _ hm _ => ⟨hy, h.trans hm⟩

theorem copes_now (h : Later u i w w') :
    (sharing ι O u favorites t).Copes i Program.now w'
      (fun m w'' => (∃ m', O.times m' ∧ m = m'.inUtc) ∧ Later u i w w'') E := by
  refine copes_calm hroom trivial h fun _ _ ha h => ?_
  have ⟨m, hm, hx⟩ := ha.now_inv
  rw [if_pos (hd.clock hm)] at hx
  subst hx
  exact fun _ h' _ => ⟨⟨m, hm, rfl⟩, h.trans h'⟩

theorem copes_requestGrant {f : Grant.Form} (h : Later u i w w') :
    (sharing ι O u favorites t).Copes i (requestGrant f) w'
      (fun g w'' => (∃ x, O.replies (.grant f) x ∧ granted x = some g) ∧ Later u i w w'') E := by
  refine copes_calm hroom trivial h fun {_ x _} _ _ ha h => ?_
  have hx := (ha.other_inv trivial).left
  have hg := hd.grant hx
  cases x
  case error => cases hg
  case ok a =>
    by_cases hs : a.status < 400 ∨ 600 ≤ a.status <;> simp only [hs, if_true, if_false]
    case neg => simp [granted, hs] at hg
    case pos =>
      cases hj : Json.read? a.text <;> dsimp only
      case none => simp [granted, hs, hj] at hg
      case some body =>
        cases hb : Schema.grant.read body <;> dsimp only
        case error => simp [granted, hs, hj, hb, Except.toOption] at hg
        case ok g  =>
          exact fun _ hm _ => ⟨⟨_, hx, by simp [granted, hs, hj, hb, Except.toOption]⟩, h.trans hm⟩

theorem copes_expiry {lifetime : Int} (h : Later u i w w')
    (hl : ∀ {m}, O.times m → (Session.expiry? m.inUtc lifetime).isSome) :
    (sharing ι O u favorites t).Copes i (Account.expiry lifetime) w' (fun _ => Later u i w) E := by
  refine (copes_now hroom hd h).bind fun {_ _} _ ⟨⟨m, hm, he⟩, h⟩ => ?_
  subst he
  have ⟨e, he⟩ := Option.isSome_iff_exists.mp (hl hm)
  rw [he]
  exact fun _ h' _ => h.trans h'

theorem copes_setTokens {access : String} {m : Moment} {refresh : Option String}
    (hu : Datum.IsStorable u) (h : Later u i w w') :
    (sharing ι O u favorites t).Copes i
      (Program.library (.setTokens (.integer u) (.text access) m (.ofOption refresh))) w'
      (fun _ => Later u i w) E := by
  refine copes_calm hroom ⟨trivial, id⟩ h fun {w₁ _ _} _ _ ha h => ?_
  have ⟨m', hm', hp⟩ := ha.library_inv
  rcases w₁.library.perform_setTokens m' access m refresh hu with ⟨_, hn⟩ | ⟨l, hp', _⟩
  case inl => exact absurd (hd.clock hm') hn
  case inr =>
    cases (Prod.mk.inj (hp.symm.trans hp')).left
    exact fun _ hm _ => h.trans hm

theorem copes_refresh (hu : Datum.IsStorable u) (h : Later u i w w') :
    (sharing ι O u favorites t).Copes i Account.refresh w' (fun _ => Later u i w) E := by
  refine (copes_session hroom hd h).bind fun {y _} _ ⟨hy, h⟩ => ?_
  refine (copes_requestGrant hroom hd h).bind fun {g _} _ ⟨⟨x, hx, hg⟩, h⟩ => ?_
  refine (copes_expiry hroom hd h fun hm => hd.expiry hx hg hm).bind fun {m _} _ h => ?_
  rw [hy]
  refine (copes_setTokens hroom hd hu h).bind fun _ h => ?_
  refine Terms.Copes.bind (P := fun _ => Later u i w) ?_ fun _ h => copes_log hroom h
  exact copes_calm hroom trivial h fun _ _ _ h _ hm _ => h.trans hm

theorem copes_validToken (hu : Datum.IsStorable u) (h : Later u i w w') :
    (sharing ι O u favorites t).Copes i Account.validToken w' (fun _ => Later u i w) E := by
  refine (copes_session hroom hd h).bind fun _ ⟨_, h⟩ => ?_
  refine (copes_now hroom hd h).bind fun _ ⟨_, h⟩ => ?_
  have ht : ∀ {w'}, Later u i w w' →
      (sharing ι O u favorites t).Copes i (Program.session >>= fun y => pure y.accessToken) w'
        (fun _ => Later u i w) E :=
    fun h => (copes_session hroom hd h).bind fun _ ⟨_, h⟩ _ hm _ => h.trans hm
  split
  case isTrue  => exact (copes_log hroom h).bind fun _ h => (copes_refresh hroom hd hu h).bind fun _ h => ht h
  case isFalse => exact ht h

-- A call that is always answered in the expected shape.
theorem copes_call {c : Call} {schema : Schema α} {A : α → Prop} (hu : Datum.IsStorable u)
    (hc : ∀ {token x}, O.replies (.call token c) x → ∃ a, heard schema x = some a ∧ A a)
    (h : Later u i w w') :
    (sharing ι O u favorites t).Copes i (Account.Service.call c schema) w'
      (fun a w'' => A a ∧ Later u i w w'') E := by
  refine (copes_validToken hroom hd hu h).bind fun {token _} _ h => ?_
  refine copes_calm hroom trivial h fun {_ x _} _ _ ha h => ?_
  have ⟨a, ha, hA⟩ := hc (ha.other_inv trivial).left
  cases x
  case error => cases ha
  case ok body _ =>
    cases hb : schema.read body
    case error => simp [heard, hb, Except.toOption] at ha
    case ok b =>
      obtain rfl : b = a := by simpa [heard, hb, Except.toOption] using ha
      simp only [hb]
      exact fun _ hm _ => ⟨hA, h.trans hm⟩

theorem copes_savedTracks (hu : Datum.IsStorable u) (h : Later u i w w') :
    (sharing ι O u favorites t).Copes i (Account.Service.savedTracks (offset n) (limit n)) w'
      (fun found w'' => found.items = page favorites n ∧ Later u i w w'') E := by
  refine (copes_log hroom h).bind fun _ h => copes_call hroom hd hu (fun hx => ?_) h
  exact ⟨_, hd.favorites hx, rfl⟩

-- An artist is found for every id that is looked up.
theorem copes_artists {ids : List String} (hu : Datum.IsStorable u) (h : Later u i w w') :
    (sharing ι O u favorites t).Copes i (Account.Service.artists ids) w'
      (fun found w'' => ids ⊆ found.map (·.id) ∧ Later u i w w'') E := by
  suffices hs : ∀ (batches : List (List String)) {w'}, Later u i w w' →
      (sharing ι O u favorites t).Copes i (Account.Service.artistsOf batches) w'
        (fun found w'' => batches.flatten ⊆ found.map (·.id) ∧ Later u i w w'') E by
    have := hs (pieces Account.Service.moreArtists ids) h
    rwa [flatten_pieces] at this
  intro batches
  induction batches
  case nil => exact fun h _ hm _ => ⟨by simp, h.trans hm⟩
  case cons batch rest hi =>
    intro w' h
    refine (copes_log hroom h).bind fun _ h => ?_
    refine (copes_call hroom hd hu hd.artists h).bind fun {found _} _ ⟨hf, h⟩ => ?_
    refine (hi h).bind fun {others _} _ ⟨ho, h⟩ w'' hm _ => ⟨?_, h.trans hm⟩
    simp only [List.flatten_cons, List.map_append, List.append_subset]
    exact ⟨List.subset_append_of_subset_left _ hf, List.subset_append_of_subset_right _ ho⟩

end

end Favorites

end LabelPlaylists
