import LabelPlaylists.Proofs.CommandLine.Requests
import LabelPlaylists.Proofs.Program.Parallel

namespace LabelPlaylists

-- What errands and pushes ask for.
def Request.IsUsual (r : Request) : Prop := r.IsQuiet ∨ r.IsProviding ∨ r.IsFilling

namespace Playlist

open Account (asks_call asks_log asks_session)
open Program (Asks)
open Request (covers_quiet)
open Spotify (Call)

theorem asks_resolve {l : Int} {name : String} {criteria : Option String} :
    (resolve l name criteria).Asks Request.IsIdle := by
  have hreport : ∀ {text reason}, (reportFailure name text reason).Asks Request.IsIdle :=
    .ask trivial fun _ => .done
  unfold resolve
  split
  case h_1 => exact asks_library_bind id fun _ => .done
  case h_2 =>
    split
    case h_1 => exact Asks.bind (.ask trivial fun _ => .done) fun _ => hreport
    case h_2 =>
      refine Asks.bind (.ask trivial fun reply => by cases reply <;> constructor) fun _ => ?_
      refine Asks.bind (.ask id fun _ => .done) fun found => ?_
      split
      case h_1 => exact .done
      case h_2 => exact .fail
      case h_3 => exact hreport

theorem asks_itemsCall {c : Call} {schema : Spotify.Schema α}
    (hc : ∀ token, Request.IsFilling (.call token c)) :
    (Account.Service.call c schema).Asks fun r => r.IsQuiet ∨ r.IsFilling :=
  asks_call (fun token => .inr (hc token)) (covers_quiet.mono .inl)

-- A playlist is filled by nothing but calls for its items.
theorem asks_fill_of {P : Request → Prop} {playlist : String} {tracks : List String}
    (hc : ∀ c message, (∀ token, Request.IsFilling (.call token c)) →
      (Account.Service.debug message >>= fun _ => Account.Service.call c .snapshot).Asks P) :
    (fill playlist tracks).Asks P := by
  have hadd (more : List (List String)) : (addPieces playlist more).Asks P := by
    induction more
    case nil         => exact .done
    case cons _ _ hr => exact (hc (.addItems ..) _ fun _ => trivial).bind fun _ => hr
  unfold fill
  dsimp only
  split
  case h_1 => exact .done
  case h_2 =>
    refine (hc (.replaceItems ..) _ fun _ => trivial).bind fun _ => (hadd _).bind fun _ => ?_
    split
    case isTrue  => exact (hc (.removeItems ..) _ fun _ => trivial).bind fun _ => .done
    case isFalse => exact .done

theorem asks_fill {playlist : String} {tracks : List String} :
    (fill playlist tracks).Asks fun r => r.IsQuiet ∨ r.IsFilling :=
  asks_fill_of fun _ _ hc => (asks_log (.inl trivial)).bind fun _ => asks_itemsCall hc

-- A playlist is filled, but neither created nor recorded.
theorem asks_pushOne {p : Library.PlaylistView} :
    (pushOne p).Asks fun r => r.IsQuiet ∨ r.IsFilling := by
  refine (asks_resolve.mono fun _ h => .inl h.isQuiet).bind fun _ => asks_fill.bind fun _ => ?_
  exact (asks_log (.inl trivial)).bind fun _ => .done

variable {first : List Library.Label → List Library.Label} {workers : Int}
variable {arrange : List Library.PlaylistView → List Library.PlaylistView}

-- Playlists are created and recorded, but not filled.
theorem asks_provideIn_of {P : Request → Prop} (h : Request.Covers P)
    (hc : ∀ token user name isPublic description, P (.call token (.createPlaylist user name isPublic description)))
    (ha : ∀ u k id, P (.library (.addPlaylist u k id))) (hl : ∀ u, P (.library (.labelsWithoutPlaylist u))) :
    (provideIn first workers).Asks P := by
  have hsession := asks_session h.session
  have hone (l : Library.Label) : (provideOne l).Asks P := by
    refine (hsession.bind fun _ => (asks_log (h.log ..)).bind fun _ => asks_call (fun _ => hc ..) h).bind fun _ => ?_
    refine hsession.bind fun _ => asks_library_bind (ha ..) fun _ => ?_
    exact (asks_log (h.log ..)).bind fun _ => .done
  refine hsession.bind fun _ => asks_library_bind (hl _) fun _ => ?_
  split
  case isTrue  => exact .done
  case isFalse =>
    exact (asks_log (h.log ..)).bind fun _ => (Program.asks_inParallel hone h.log).bind fun _ => .done

theorem asks_provideIn : (provideIn first workers).Asks fun r => r.IsQuiet ∨ r.IsProviding :=
  asks_provideIn_of (covers_quiet.mono .inl) (fun _ _ _ _ _ => .inr trivial) (fun _ _ _ => .inr trivial)
    fun _ => .inl trivial

theorem asks_pushEachIn : (pushEachIn arrange workers).Asks fun r => r.IsQuiet ∨ r.IsFilling := by
  refine (asks_session (.inl trivial)).bind fun _ => asks_library_bind (.inl trivial) fun _ => ?_
  exact Program.asks_inParallel (fun _ => asks_pushOne) fun _ _ _ => .inl trivial

theorem asks_pushIn : (pushIn first arrange workers).Asks Request.IsUsual := by
  refine (asks_provideIn.mono fun _ h => h.imp id .inl).bind fun _ => ?_
  refine (asks_pushEachIn.mono fun _ h => h.imp id .inr).bind fun _ => ?_
  exact Asks.bind (.ask (.inl trivial) fun _ => .done) fun _ => .done

end Playlist

-- A playlist is filled without any change of what lasts.
theorem Surroundings.Preserves.fill {σ : Type} {S : Surroundings σ} {J : Scene → Prop} (hj : S.Lasting J)
    {playlist : String} {tracks : List String} : S.Preserves J (Playlist.fill playlist tracks) := by
  have hcall {c : Spotify.Call} {message : String} : S.Preserves J
      (Account.Service.debug message >>= fun _ => Account.Service.call c .snapshot) :=
    Preserves.bind .log fun _ => .call hj
  have hadd (more : List (List String)) : S.Preserves J (Playlist.addPieces playlist more) := by
    induction more
    case nil         => exact .done
    case cons _ _ hr => exact hcall.bind fun _ => hr
  unfold Playlist.fill
  dsimp only
  split
  case h_1 => exact .done
  case h_2 =>
    refine hcall.bind fun _ => (hadd _).bind fun _ => ?_
    split
    case isTrue  => exact hcall.bind fun _ => .done
    case isFalse => exact .done

end LabelPlaylists
