import LabelPlaylists.Proofs.Account.Service
import LabelPlaylists.Proofs.Favorites.Loop

namespace LabelPlaylists.Favorites

open Spotify (SavedTrack)
open Surroundings (Preserves)

-- What a pull has the library perform, for users of the given kind.
inductive Performs (U : Int → Prop) : Library.Command → Prop
  | addAlbums {albums : List Spotify.Album} : Performs U (.addAlbums (albums.map albumValues))
  | knownArtists {ids} : Performs U (.knownArtists ids)
  | addArtists {artists} : Performs U (.addArtists artists)
  | knownTracks {u ids} : Performs U (.knownTracks u ids)
  | addTrack {u v artists} : U u → Performs U (.addTrack (.integer u) v artists)
  | setTokens {u access m refresh} : U u → Performs U (.setTokens (.integer u) access m refresh)

-- Scenes of which something holds that a pull does not change. It also tells who may be in session.
structure Carries (S : Surroundings σ) (U : Int → Prop) (J : Scene → Prop) : Prop where
  session : ∀ {a x}, J a → a.session = some x → U x.userId
  lasting : S.Lasting J
  library : ∀ {c}, Performs U c → ∀ a now, J a → J { a with library := (a.library.perform now c).2 }

namespace Carries

variable {σ : Type} {S : Surroundings σ} {U : Int → Prop} {J : Scene → Prop} {workers : Int}
variable (hj : Carries S U J)
include hj

theorem performs {c : Library.Command} (hc : Performs U c) : S.Preserves J (Program.library c) :=
  .library (by cases hc <;> nofun) (hj.library hc)

theorem addMissingArtists {ids : List String} : S.Preserves J (addMissingArtists ids) := by
  refine Preserves.bind (hj.performs .knownArtists) fun known => ?_
  dsimp only
  split
  case isTrue  => exact .done
  case isFalse => exact (Preserves.artists hj.lasting).bind fun _ => hj.performs .addArtists

theorem addTracks {v : Int} (hv : U v) {items : List SavedTrack} : S.Preserves J (addTracks v items) := by
  induction items
  case nil         => exact .done
  case cons _ _ hr => exact (hj.performs (.addTrack hv)).bind fun _ => Preserves.bind .log fun _ => hr

theorem addPage {items : List SavedTrack} {sum : Summary} :
    S.Preserves J (addPage workers items sum) := by
  unfold Favorites.addPage
  split
  case isTrue => exact .done
  case isFalse =>
    split
    case isTrue => exact .fail
    case isFalse =>
      refine (hj.performs .addAlbums).outcome.bind fun _ => hj.addMissingArtists.outcome.bind fun _ => ?_
      refine Preserves.bind .ofExcept fun _ => Preserves.bind .ofExcept fun _ => ?_
      refine .session_bind hj.session fun _ hx => (hj.performs .knownTracks).bind fun _ => ?_
      exact (hj.addTracks hx).bind fun _ => .done

theorem savedTracks {offset limit : Int} : S.Preserves J (Account.Service.savedTracks offset limit) :=
  Preserves.bind .log fun _ => .call hj.lasting

theorem turn {offset limit : Nat} {sum : Summary} : S.Preserves J (turn workers offset limit sum) := by
  refine hj.savedTracks.bind fun _ => ?_
  exact hj.addPage.bind fun _ => Preserves.bind .log fun _ => .done

theorem pullFrom {pages offset limit : Nat} {sum : Summary} :
    S.Preserves J (pullFrom workers pages offset limit sum) := by
  induction pages generalizing offset limit sum
  case zero => exact .done
  case succ pages hr =>
    rw [pullFrom_succ]
    refine hj.turn.bind fun r => ?_
    split
    case isTrue  => exact hr
    case isFalse => exact .done

omit hj in
theorem finish {sum : Summary} : S.Preserves J (finish sum) :=
  Preserves.bind .log fun _ => .done

theorem pull {pages : Nat} : S.Preserves J (pull pages workers) :=
  hj.pullFrom.bind fun _ => finish

omit hj in
-- What every single change of a pull keeps of the tables, the pull keeps.
theorem of_effect {I : Library.Tables → Prop}
    (hi : ∀ {c t t'}, Performs (fun _ => True) c → c.Effect t t' → I t → I t') :
    Carries S (fun _ => True) fun a => I a.library.tables ∧ I a.library.saved where
  session _ _ := trivial
  lasting.rests hr h := by
    rcases hr with hs | ⟨x, g, m, hx, _, _, _, t, _, ht, hs⟩ <;> rw [hs]
    case inl => exact h
    case inr =>
      have ht := hi (.setTokens trivial) (Library.Command.Effect.of_setTokens (m := m) ht) h.left
      exact ⟨ht, ht⟩
  lasting.call _ h := h
  library hc _ _ h := Library.Store.perform_keeps (fun e => hi hc e.effect) h.left h.right

end Carries

end LabelPlaylists.Favorites
