import LabelPlaylists.Proofs.CommandLine.OwnWork
import LabelPlaylists.Proofs.Library.Part
import LabelPlaylists.Proofs.Playlist.Sample

namespace LabelPlaylists

open CommandLine (IsCommand IsErrand)
open Library (Command Kept Store Tables User)
open Surroundings (Preserves)

variable {σ : Type} {S : Surroundings σ} {u : Int} {N : String → Prop} {I : Tables → Prop}

-- Spotify has told whose a token is.
def Told (es : List Exchange) (name : String) : Prop :=
  ∃ reply, (.profile, reply) ∈ called es ∧ (heard Spotify.Schema.profile reply).map (·.id) = some name

theorem told_append {es rest : List Exchange} {name : String} :
    Told (es ++ rest) name ↔ Told es name ∨ Told rest name := by
  simp only [Told, called_append, List.mem_append, or_and_right, exists_or]

namespace Surroundings

-- A program that keeps what holds of the scene if all names that it is told are of the given kind.
def Upholds (S : Surroundings σ) (N : String → Prop) (J : Scene → Prop) (t : Program α) : Prop :=
  ∀ s es o s', S.Runs t s es o s' → (∀ name, Told es name → N name) → J (S.scene s) → J (S.scene s')

variable {J : Scene → Prop} {t : Program α} {f : α → Program β}

theorem Preserves.upholds (h : S.Preserves J t) : S.Upholds N J t :=
  fun _ _ _ _ hr _ => h _ _ _ _ hr

namespace Upholds

theorem bind (ht : S.Upholds N J t) (hf : ∀ a, S.Upholds N J (f a)) : S.Upholds N J (t >>= f) := by
  intro _ _ _ _ h hn hj
  rcases h.bind_inv with ⟨_, _, h⟩ | ⟨a, _, before, rest, he, h, h'⟩
  case inl => exact ht _ _ _ _ h hn hj
  case inr =>
    rw [he] at hn
    have hj := ht _ _ _ _ h (fun name hp => hn name (told_append.mpr (.inl hp))) hj
    exact hf a _ _ _ _ h' (fun name hp => hn name (told_append.mpr (.inr hp))) hj

-- What is done with a profile may make use of the name in it.
theorem profile_bind (hj : S.Lasting J) {token : String} {f : Spotify.Profile → Program α}
    (hf : ∀ p, N p.id → S.Upholds N J (f p)) :
    S.Upholds N J (Account.Service.execute token .profile .profile >>= f) := by
  intro _ _ _ _ h hn hs
  rcases h.bind_inv with ⟨_, _, h⟩ | ⟨p, _, before, rest, he, h, h'⟩
  case inl => exact h.execute_inv.right.left ▸ hj.call _ hs
  case inr =>
    rw [he] at hn
    have ⟨hc, hs', ho⟩ := h.execute_inv
    have hp : Told before p.id := by
      refine ⟨_, hc ▸ List.mem_singleton_self _, ?_⟩
      rw [← toOption_told, ← ho]
      rfl
    have hp := hn _ (told_append.mpr (.inl hp))
    exact hf p hp _ _ _ _ h' (fun name hp => hn name (told_append.mpr (.inr hp))) (hs' ▸ hj.call _ hs)

end Upholds

end Surroundings

namespace Library.Kept

variable {t : Program α}

-- A login puts none but those into the library who Spotify has told of.
theorem upholds_login (hf : S.Fair) (hk : Kept u N I) {code redirectUri : String} :
    S.Upholds N (Scene.Holds u I) (Account.login code redirectUri) := by
  refine (hf.preserves_idle hk (Account.asks_exchangeCode (fun _ => trivial) fun _ _ _ => trivial)).upholds.bind
    fun g => (hf.preserves_idle hk (Account.asks_expiry trivial)).upholds.bind fun _ => ?_
  refine .profile_bind (holds_lasting hk) fun p hp => Preserves.upholds ?_
  refine (hk.preserves (by nofun) fun _ => ?_).bind fun _ => Preserves.bind .log fun _ => .done
  rintro _ ⟨⟩
  exact hp

-- The user in session keeps what holds by every command.
theorem upholds (hf : S.Fair) (hk : Kept u N I) (ht : IsCommand t) : S.Upholds N (Scene.Holds u I) t := by
  cases ht
  case push hp _ => exact (hk.preserves_pushIn hf hp).upholds
  case errand t ht =>
    by_cases hl : ∃ s, t = CommandLine.login s
    case neg => exact (hk.preserves_errand hf ht fun s he => hl ⟨s, he⟩).upholds
    case pos =>
      obtain ⟨s, rfl⟩ := hl
      have hidle {β : Type} {t : Program β} (ht : t.Asks Request.IsIdle) : S.Upholds N (Scene.Holds u I) t :=
        (hf.preserves_idle hk ht).upholds
      refine (hidle (.ask (by trivial) fun _ => .done)).bind fun _ => ?_
      refine (hidle (asks_print trivial)).bind fun _ => (hidle (asks_print trivial)).bind fun _ => ?_
      refine (hidle (asks_print trivial)).bind fun _ => (hidle (.ask (by trivial) fun _ => .done)).bind fun pasted => ?_
      cases pasted
      case none => exact Preserves.fail.upholds
      case some =>
        dsimp only
        split
        case h_1 => exact Preserves.fail.upholds
        case h_2 => exact (hk.upholds_login hf).bind fun _ => hidle (asks_print trivial)

end Library.Kept

namespace CommandLine

-- The libraries that commands lead to, whoever runs them. A library may be closed and opened again at any
-- time.
inductive Reached : Store → Prop
  | create {path} : Reached (.create path)
  | reopen {l} : Reached l → Reached l.reconnect
  | command {σ : Type} {S : Surroundings σ} {α : Type} {t : Program α} {s es o s'} :
    Reached (S.scene s).library → S.Fair → IsCommand t → S.Runs t s es o s' → Reached (S.scene s').library

-- Whoever is in session, what is tied together belongs to the same user.
theorem Reached.owned {l : Store} (h : Reached l) :
    (l.tables.Sound ∧ l.tables.Owned) ∧ (l.saved.Sound ∧ l.saved.Owned) ∧ l.saved.ExtendsTo l.tables := by
  induction h
  case create => exact ⟨⟨.empty, .empty⟩, ⟨.empty, .empty⟩, .refl _⟩
  case reopen hi => exact ⟨hi.right.left, hi.right.left, .refl _⟩
  case command S _ t s _ _ _ _ hf ht hr hi =>
    have hk : Kept (((S.scene s).session.map (·.userId)).getD 0) (fun _ => True) fun t => t.Sound ∧ t.Owned :=
      .owned
    have h := hk.upholds hf ht _ _ _ _ hr (fun _ _ => trivial)
      ⟨fun hx => by rw [hx]; rfl, hi.left, hi.right.left, hi.right.right⟩
    exact ⟨h.tables, h.saved, h.order⟩

-- Nothing is left to be made permanent, unless there are more tracks than the store can number.
theorem Reached.orderly {l : Store} (h : Reached l) : l.Orderly := by
  induction h
  case create => exact .inl rfl
  case reopen => exact .inl rfl
  case command S _ _ _ _ _ _ _ hf ht hr hi =>
    exact hr.keeps (I := fun s => (S.scene s).library.Orderly) ht.asks (fun hq h => hf.orderly hq h) hi

end CommandLine

namespace Library.Kept

-- The part of the tables that belongs to another user stays as it is.
theorem part {a : User} {t : Tables} (ha : a ∈ t.users) (hu : u ≠ a.id) (hn : ¬N a.spotifyId) :
    Kept u N fun t' => (t'.Sound ∧ t'.Owned) ∧ t'.part a.id = t.part a.id where
  sound h     := h.left.left
  step hc e h := by
    have ⟨⟨hs, ho⟩, hp⟩ := h
    have hm : a ∈ (t.part a.id).users := List.mem_filter.mpr ⟨ha, decide_eq_true rfl⟩
    rw [← hp] at hm
    have hp' := e.effect.part_eq hc hs (List.mem_of_mem_filter hm) hu hn
    exact ⟨⟨e.effect.sound hs, e.effect.owned hc hs ho⟩, hp'.trans hp⟩

end Library.Kept

-- Users do not affect one another. Commands have led to a library, and after it has been opened somebody runs
-- one more command, which may fail. Then questions about another user are answered as before, and they still are
-- when the library is opened again.
theorem CommandLine.Reached.others_unaffected {l : Store} (h : Reached l) {a : User} (ha : a ∈ l.saved.users)
    {b : Int} (hb : b ≠ a.id) {t : Program α} {s s' : σ} {es : List Exchange} {o : Except Failure α}
    (hf : S.Fair) (hl : (S.scene s).library = l.reconnect)
    (hx : ∀ {x}, (S.scene s).session = some x → x.userId = b) (ht : IsCommand t) (hr : S.Runs t s es o s')
    (hn : ¬Told es a.spotifyId) {q : Library.Command} (hq : q.IsAbout l.saved a.id) (now : Moment) :
    ((S.scene s').library.perform now q).1 = (l.reconnect.perform now q).1 ∧
      ((S.scene s').library.reconnect.perform now q).1 = (l.reconnect.perform now q).1 := by
  have ⟨⟨hs, ho⟩, _⟩ := h.reopen.owned
  have hk : Kept b (· ≠ a.spotifyId) _ := .part ha hb (not_not_intro rfl)
  have h₀ : (S.scene s).Holds b fun t => (t.Sound ∧ t.Owned) ∧ t.part a.id = l.saved.part a.id := by
    refine ⟨hx, ?_, ?_, ?_⟩ <;> rw [hl]
    · exact ⟨⟨hs, ho⟩, rfl⟩
    · exact ⟨⟨hs, ho⟩, rfl⟩
    · exact .refl _
  have h' := hk.upholds hf ht _ _ _ _ hr (fun name hp he => hn (he ▸ hp)) h₀
  exact ⟨Store.fst_perform_eq ho h'.tables.left.right hq h'.tables.right,
    Store.fst_perform_eq ho h'.saved.left.right hq h'.saved.right⟩

theorem History.reached_by_commands {past : List (List Exchange)} {l : Store} (h : History past l) :
    CommandLine.Reached l := by
  induction h
  case create                   => exact .create
  case reopen hi                => exact hi.reopen
  case errand hf ht hr hi       => exact hi.command hf (.errand ht) hr
  case push hf _ _ hp ha hr hi  => exact hi.command hf (.push hp ha) hr

theorem CommandLine.Reached.trace {w : Simulation.World} {t : Program α} (h : Reached w.library)
    (ht : IsCommand t) : Reached (Simulation.World.surroundings.trace t w).2.2.library :=
  h.command Simulation.World.fair ht (Simulation.World.surroundings.runs_trace t w)

namespace CommandLine.Sample

open Playlist.Sample (answering favorite grant history_answering settings)
open Simulation (World)

-- Somebody else is about to log in, who has the same favorite.
def arriving : World :=
  { answering with
    session  := none
    service  := { favorites := [favorite.body], profile := Spotify.Profile.body ⟨"bob", []⟩ }
    grants   := [.ok ⟨200, grant.body.text⟩]
    terminal := { input := ["code"] } }

@[irreducible]
def arrived : World := (World.surroundings.trace (login settings) arriving).2.2

def session : Session := ⟨2, "bob", "token", "refresh", .ofDay ⟨2024, 6, 1⟩ (59 * 60 * 1000000) (some 0)⟩

-- The library has been opened again for a pull of theirs.
def pulling : World := { arrived with library := arrived.library.reconnect, session := some session }

theorem reached_arrived : Reached arrived.library := by
  have h : Reached arriving.library := history_answering.reached_by_commands
  unfold arrived
  exact h.trace (.errand (.login settings))

end CommandLine.Sample

open CommandLine.Sample Playlist.Sample Simulation in
-- Bob's pull adds a track of his, with the album and the artist that stand there for the track of Alice. The
-- tracks of her label are the same as before.
theorem CommandLine.Reached.others_unaffected_pull :
    ∃ es o w, World.surroundings.Runs (CommandLine.pull settings) pulling es o w ∧
      w.library.tables.tracks.map (fun r => (r.userId, r.spotifyId, r.albumId))
        = [(1, Playlist.placeholderTrack, "album"), (2, Playlist.placeholderTrack, "album")] ∧
      (w.library.perform w.clock (.labelTracks (.integer 1))).1
        = (arrived.library.reconnect.perform w.clock (.labelTracks (.integer 1))).1 := by
  have hr := World.surroundings.runs_trace (CommandLine.pull settings) pulling
  -- The pull is evaluated once.
  have ⟨hu, hl, hc, ht⟩ : arrived.library.saved.users.map (fun v => (v.id, v.spotifyId)) = [(1, "alice"), (2, "bob")] ∧
      arrived.library.saved.labels.map (fun l => (l.id, l.userId)) = [(1, 1), (2, 1)] ∧
      ((called (World.surroundings.trace (CommandLine.pull settings) pulling).1).all
        fun c => c.1.kind ≠ .profile) ∧
      (World.surroundings.trace (CommandLine.pull settings) pulling).2.2.library.tables.tracks.map
          (fun r => (r.userId, r.spotifyId, r.albumId))
        = [(1, Playlist.placeholderTrack, "album"), (2, Playlist.placeholderTrack, "album")] := by
    decide +kernel
  have ⟨a, ha, he⟩ := List.mem_map.mp (hu ▸ List.mem_cons_self)
  have ⟨l, hm, hi⟩ := List.mem_map.mp (hl ▸ List.mem_cons_self)
  simp only [Prod.mk.injEq] at he hi
  have hs : (World.surroundings.scene pulling).library = arrived.library.reconnect := by
    rw [World.library_scene, pulling]
  refine ⟨_, _, _, hr, ht, ?_⟩
  rw [← World.library_scene (World.surroundings.trace (CommandLine.pull settings) pulling).2.2]
  refine (reached_arrived.others_unaffected ha (b := 2) (by simp [he]) World.fair hs ?_ (.errand (.pull _)) hr
    ?_ (.labelTracks (d := .integer 1) hm (hi.right.trans he.left.symm) (congrArg some hi.left.symm)) _).left
  case refine_1 => rintro _ ⟨⟩; rfl
  case refine_2 =>
    rintro ⟨_, hm, _⟩
    exact of_decide_eq_true (List.all_eq_true.mp hc _ hm) rfl

end LabelPlaylists
