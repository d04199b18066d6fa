import LabelPlaylists.Proofs.Playlist.Provision
import LabelPlaylists.Proofs.Playlist.Requests

namespace LabelPlaylists

open CommandLine (IsErrand)
open Library (Store)
open Playlist

-- Surroundings in which the store performs a search or refuses it, and in which nobody changes the library
-- or the session at the terminal.
structure Surroundings.Fair {σ : Type} (S : Surroundings σ) : Prop where
  find     : ∀ {u f s},
    ((S.answer (.library (.find u f)) s).1, S.scene (S.answer (.library (.find u f)) s).2)
      = (((S.scene s).library.perform (S.clock s) (.find u f)).1,
         { S.scene s with library := ((S.scene s).library.perform (S.clock s) (.find u f)).2 }) ∨
    (∃ e, (S.answer (.library (.find u f)) s).1 = .error e ∧ e ≠ .numberTooLarge) ∧
      S.scene (S.answer (.library (.find u f)) s).2 = S.scene s
  print    : ∀ {text s}, S.scene (S.answer (.print text) s).2 = S.scene s
  complain : ∀ {text s}, S.scene (S.answer (.complain text) s).2 = S.scene s
  prompt   : ∀ {text s}, S.scene (S.answer (.prompt text) s).2 = S.scene s
  secret   : ∀ {s}, S.scene (S.answer .secret s).2 = S.scene s

namespace Surroundings.Fair

variable {σ : Type} {S : Surroundings σ} {r : Request} {s : σ} {cs : List Creation}

-- A request changes the library by performing an operation or not at all.
theorem library (hf : S.Fair) (hr : r.IsUsual) :
    (S.scene (S.answer r s).2).library = (S.scene s).library ∨
    ∃ c now, r = .library c ∧ c.IsCareful ∧
      (S.scene (S.answer r s).2).library = ((S.scene s).library.perform now c).2 := by
  cases r
  case library c =>
    have hc : c.IsCareful := by
      rcases hr with h | h | h <;> cases c <;> first | exact h | exact h.elim
    by_cases hu : ∃ u f, c = .find u f
    case pos =>
      obtain ⟨u, f, rfl⟩ := hu
      rcases hf.find (u := u) (f := f) (s := s) with h | ⟨_, h⟩
      case inl => exact .inr ⟨_, _, rfl, hc, by rw [(Prod.mk.inj h).right]⟩
      case inr => exact .inl (by rw [h])
    case neg =>
      have h := S.library (s := s) fun u f he => hu ⟨u, f, he⟩
      exact .inr ⟨c, _, rfl, hc, by rw [(Prod.mk.inj h).right]⟩
  case call       => exact .inl (by rw [S.call])
  case grant      => exact .inl (by rw [S.grant])
  case now        => exact .inl (by rw [(Prod.mk.inj S.now).right])
  case log        => exact .inl (by rw [S.log])
  case session    => exact .inl (by rw [(Prod.mk.inj S.session).right])
  case setSession => exact .inl (by rw [S.setSession])
  case print      => exact .inl (by rw [hf.print])
  case complain   => exact .inl (by rw [hf.complain])
  case prompt     => exact .inl (by rw [hf.prompt])
  case secret     => exact .inl (by rw [hf.secret])
  all_goals rcases hr with h | h | h <;> exact h.elim

theorem orderly (hf : S.Fair) (hr : r.IsUsual) (h : (S.scene s).library.Orderly) :
    (S.scene (S.answer r s).2).library.Orderly := by
  rcases hf.library hr (s := s) with hl | ⟨c, now, _, hc, hl⟩ <;> rw [hl]
  case inl => exact h
  case inr => exact h.perform hc

-- What is recorded stays recorded unless a playlist is to be recorded.
theorem recorded (hf : S.Fair) (hr : r.IsQuiet ∨ r.IsFilling)
    (h : Recorded cs (S.scene s).library.tables ∧ Recorded cs (S.scene s).library.saved) :
    Recorded cs (S.scene (S.answer r s).2).library.tables ∧
      Recorded cs (S.scene (S.answer r s).2).library.saved := by
  rcases hf.library (hr.imp_right .inr) (s := s) with hl | ⟨c, now, he, _, hl⟩ <;> rw [hl]
  case inl => exact h
  case inr =>
    have hc : ∀ u l v, c ≠ .addPlaylist u l v := by
      rintro u l v rfl
      subst he
      exact hr.elim id id
    exact Store.perform_keeps (fun e h => h.effect hc e.effect) h.left h.right

end Surroundings.Fair

-- Numbers have been given out that the store can hold.
structure Library.Tables.Fits (t : Tables) : Prop where
  users  : Datum.IsStorable t.lastUser
  tracks : Datum.IsStorable t.lastTrack
  labels : Datum.IsStorable t.lastLabel

theorem Library.Tables.Fits.label {t : Tables} (hf : t.Fits) (hs : t.Sound) {l : Label} (hl : l ∈ t.labels) :
    Datum.IsStorable l.id := by
  have hf := hf.labels
  have := hs.labelNumbers l hl
  simp only [Datum.IsStorable] at *
  omega

theorem Library.Tables.Fits.user {t : Tables} (hf : t.Fits) (hs : t.Sound) {u : Int}
    (hu : u ∈ t.users.map (·.id)) : Datum.IsStorable u := by
  have ⟨v, hv, he⟩ := List.mem_map.mp hu
  have hf := hf.users
  have := hs.userNumbers v hv
  simp only [Datum.IsStorable] at *
  omega

-- The session in use is that of a stored user, if there is one.
def Scene.IsSigned (a : Scene) : Prop :=
  ∀ x ∈ a.session, (x.userId, x.spotifyId) ∈ a.library.tables.users.map fun v => (v.id, v.spotifyId)

-- What has been exchanged command by command since a library was created, and the library that the
-- commands have led to. Each command has its own surroundings and may fail; the library may be closed and
-- opened again at any time. A push works on labels and playlists in any order.
inductive History : List (List Exchange) → Store → Prop
  | create {path} : History [] (.create path)
  | reopen {past l} : History past l → History past l.reconnect
  | errand {past σ t s es o s'} {S : Surroundings σ} :
    History past (S.scene s).library → S.Fair → IsErrand t → S.Runs t s es o s' →
    History (past ++ [es]) (S.scene s').library
  | push {past σ first arrange workers s es o s'} {S : Surroundings σ} :
    History past (S.scene s).library → S.Fair → (S.scene s).IsSigned → (S.scene s).library.tables.Fits →
    (∀ ls, (first ls).Perm ls) → (∀ ps, (arrange ps).Perm ps) →
    S.Runs (pushIn first arrange workers) s es o s' →
    History (past ++ [es]) (S.scene s').library

-- After any history nothing is left to be made permanent, unless there are more tracks than the store can
-- number.
theorem History.orderly {past : List (List Exchange)} {l : Store} (h : History past l) : l.Orderly := by
  induction h
  case create => exact .inl rfl
  case reopen => exact .inl rfl
  case errand S _ hf ht h hr =>
    exact h.keeps (I := fun s => (S.scene s).library.Orderly) (ht.asks.mono fun _ => .inl)
      (fun hq h => hf.orderly hq h) hr
  case push S _ hf _ _ _ _ h hr =>
    exact h.keeps (I := fun s => (S.scene s).library.Orderly) asks_pushIn (fun hq h => hf.orderly hq h) hr

end LabelPlaylists
