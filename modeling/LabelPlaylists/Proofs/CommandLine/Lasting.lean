import LabelPlaylists.Proofs.Library.Append
import LabelPlaylists.Proofs.Playlist.Sample

namespace LabelPlaylists

open CommandLine (IsErrand)
open Library (Command Store Tables)
open Playlist (pushIn)

namespace CommandLine

-- What a command does once its session is chosen. A push works on labels and playlists in any order.
inductive IsCommand : {α : Type} → Program α → Prop
  | errand {t : Program Unit} : IsErrand t → IsCommand t
  | push {first arrange workers} :
    (∀ ls, (first ls).Perm ls) → (∀ ps, (arrange ps).Perm ps) → IsCommand (pushIn first arrange workers)

theorem IsCommand.asks {t : Program α} (h : IsCommand t) : t.Asks Request.IsUsual := by
  cases h
  case errand h => exact h.asks.mono fun _ => .inl
  case push     => exact Playlist.asks_pushIn

end CommandLine

open CommandLine (IsCommand)

variable {σ : Type} {S : Surroundings σ} {s s' : σ} {es : List Exchange} {past : List (List Exchange)}

-- What every single change keeps, of the tables in use and of those that are saved, a command keeps.
theorem Surroundings.Runs.keeps_tables {I : Tables → Prop} {t : Program α} {o : Except Failure α}
    (hf : S.Fair) (hi : ∀ {c : Command} {t t'}, c.Step t t' → I t → I t') (ht : t.Asks Request.IsUsual)
    (h : S.Runs t s es o s') (hs : I (S.scene s).library.tables ∧ I (S.scene s).library.saved) :
    I (S.scene s').library.tables ∧ I (S.scene s').library.saved := by
  refine h.keeps (I := fun s => I (S.scene s).library.tables ∧ I (S.scene s).library.saved) ht
    (fun {r s} hr h => ?_) hs
  rcases hf.library hr (s := s) with he | ⟨c, now, _, _, he⟩ <;> rw [he]
  case inl => exact h
  case inr => exact Store.perform_keeps hi h.left h.right

-- Commands lead to no other stores than single operations.
theorem History.reached {l : Store} (h : History past l) : Store.Reached (fun _ => True) l := by
  have hr {σ : Type} {S : Surroundings σ} {r : Request} {s : σ} (hf : S.Fair) (hr : r.IsUsual)
      (h : Store.Reached (fun _ => True) (S.scene s).library) :
      Store.Reached (fun _ => True) (S.scene (S.answer r s).2).library := by
    rcases hf.library hr (s := s) with he | ⟨_, _, _, _, he⟩ <;> rw [he]
    case inl => exact h
    case inr => exact h.perform trivial
  induction h
  case create     => exact .create
  case reopen hi  => exact hi.reconnect
  case errand S _ hf ht h hi =>
    exact h.keeps (I := fun s => Store.Reached _ (S.scene s).library) (ht.asks.mono fun _ => .inl) (hr hf) hi
  case push S _ hf _ _ _ _ h hi =>
    exact h.keeps (I := fun s => Store.Reached _ (S.scene s).library) Playlist.asks_pushIn (hr hf) hi

-- Who logs in again is the same user as before.
theorem Surroundings.Runs.login_known {code redirectUri : String} {x : Session} {u : Library.User} (hf : S.Fair)
    (hs : (S.scene s).library.Sound) (hu : u ∈ (S.scene s).library.tables.users)
    (hsv : (S.scene s).library.saved = (S.scene s).library.tables) (hn : u.spotifyId = x.spotifyId)
    (h : S.Runs (Account.login code redirectUri) s es (.ok x) s') : x.userId = u.id := by
  -- Until the user is put into the library, the user stays there.
  let I (t : Tables) : Prop := t.Sound ∧ u.origin ∈ t.users.map Library.User.origin
  have hi {c : Command} {t t' : Tables} (e : c.Step t t') (h : I t) : I t' :=
    ⟨e.effect.sound h.left, e.effect.extendsTo.users.subset h.right⟩
  have hi₀ : I (S.scene s).library.tables ∧ I (S.scene s).library.saved := by
    rw [hsv]
    exact ⟨⟨hs.tables, List.mem_map_of_mem hu⟩, ⟨hs.tables, List.mem_map_of_mem hu⟩⟩
  have ⟨_, s₁, _, _, _, h₁, h⟩ := h.bind_ok_inv
  have ⟨_, s₂, _, _, _, h₂, h⟩ := h.bind_ok_inv
  have ⟨profile, s₃, _, _, _, h₃, h⟩ := h.bind_ok_inv
  have ⟨k, s₄, _, _, _, h₄, h⟩ := h.bind_ok_inv
  have ⟨_, _, _, _, _, h⟩ := h.log_bind_inv
  cases h.done_inv.right.left
  have hi₁ := h₁.keeps_tables hf hi (Account.asks_exchangeCode (fun _ => .inl trivial) fun _ _ _ => .inl trivial) hi₀
  have hi₂ := h₂.keeps_tables hf hi (Account.asks_expiry (.inl trivial)) hi₁
  have hi₃ := h₃.keeps_tables hf hi (Account.asks_execute (c := .profile) (.inl trivial) fun _ _ _ => .inl trivial) hi₂
  have ⟨⟨hs₃, hu₃⟩, _⟩ := hi₃
  have ⟨w, hw, ho⟩ := List.mem_map.mp hu₃
  simp only [Library.User.origin, Prod.mk.injEq] at ho
  obtain ⟨_, hp, _⟩ := h₄.library_inv fun _ _ he => by cases he
  rcases hq : (S.scene s₃).library.perform (S.clock s₃) _ with ⟨_ | k', store⟩ <;> rw [hq] at hp <;> cases hp
  rw [← ho.left]
  refine Store.perform_putUser_known hs₃ hw ?_ hq
  rw [ho.right.left, hn]
  rfl

-- Rows are only added to the library.
-- 1. An operation keeps all rows that are saved. It loses rows only if the store refuses a statement while
--    there are rows that are not saved.
-- 2. A command keeps all rows, after any history of commands that has not used up the numbers of tracks.
-- 3. Who logs in again is the same user as before.
theorem Library.Store.Reached.append_only_iff {P : Command → Prop} {l : Store} (h : l.Reached P) :
    (∀ now (c : Command), l.saved.ExtendsTo (l.perform now c).2.saved ∧
      (l.tables.ExtendsTo (l.perform now c).2.tables ↔
        ((∃ f, (l.perform now c).1 = .error (.fault f)) → l.tables.ExtendsTo l.saved))) ∧
    ∀ {past}, History past l → Datum.IsStorable l.tables.lastTrack →
      ∀ {σ} {S : Surroundings σ} {s : σ}, S.Fair → (S.scene s).library = l →
        (∀ {α} {t : Program α} {es o s'}, IsCommand t → S.Runs t s es o s' →
          l.tables.ExtendsTo (S.scene s').library.tables ∧
            l.tables.ExtendsTo (S.scene s').library.saved) ∧
        ∀ {code redirectUri es x s'}, S.Runs (Account.login code redirectUri) s es (.ok x) s' →
          ∀ u ∈ l.tables.users, u.spotifyId = x.spotifyId → x.userId = u.id := by
  refine ⟨fun now c => ⟨?_, Store.perform_extendsTo_iff⟩, fun {past} hpast hlast σ S s hf hl => ?_⟩
  case refine_1 => exact (Store.perform_extendsTo h.saved_extendsTo (.refl _)).right
  case refine_2 =>
    subst hl
    have hsv := hpast.orderly.resolve_right (not_not_intro hlast)
    refine ⟨fun hc hr => ?_, fun hr u hu hn => hr.login_known hf h.sound hu hsv hn⟩
    have hi : (S.scene s).library.tables.ExtendsTo (S.scene s).library.saved := hsv ▸ .refl _
    exact hr.keeps_tables hf Command.Step.extendsTo hc.asks ⟨.refl _, hi⟩

namespace Library.Store.Sample

-- A batch of albums that is broken off behind the first one.
def halfway : Command := .addAlbums [
    ⟨.text "first", .text "First", .null, .text "2020"⟩,
    ⟨.text "second", .integer (2 ^ 70), .null, .text "2020"⟩
  ]

def unsaved : Store := (library.perform noon halfway).2

-- There is only one user.
def refused : Command := .addLabel (.integer 2) (.text "label") .null

end Library.Store.Sample

open Library.Store.Sample Playlist.Sample Simulation in
-- The first album is seen, and the operation that fails after it takes it away. A push that creates a playlist
-- keeps all that has been there.
theorem Library.Store.Reached.append_only_iff_album :
    unsaved.tables.albums.map (·.id) = [some "album", some "first"] ∧
      (unsaved.perform noon refused).2.tables.albums.map (·.id) = [some "album"] ∧
      unsaved.saved.ExtendsTo (unsaved.perform noon refused).2.saved ∧
      ¬unsaved.tables.ExtendsTo (unsaved.perform noon refused).2.tables ∧
      ∃ es o w, World.surroundings.Runs (Playlist.push 2) answering es o w ∧
        answering.library.tables.ExtendsTo w.library.tables := by
  have h : unsaved.Reached fun _ => True := (library_reached.mono fun _ _ => trivial).perform trivial
  have ⟨hs, hi⟩ := h.append_only_iff.left noon refused
  have hr := World.surroundings.runs_trace (Playlist.push 2) answering
  have hc := history_answering.reached.append_only_iff.right history_answering
    answering_stands.fits_library.tracks World.fair (World.library_scene answering)
  refine ⟨by decide +kernel, by decide +kernel, hs, fun ht => ?_, _, _, _, hr, ?_⟩
  case refine_1 =>
    have hp : unsaved.tables.albums <+: unsaved.saved.albums := (hi.mp ht ⟨_, rfl⟩).albums
    exact absurd hp (by decide +kernel)
  case refine_2 =>
    have hp := (hc.left (.push (fun _ => .refl _) fun _ => .refl _) hr).left
    rw [World.library_scene] at hp
    exact hp

end LabelPlaylists
