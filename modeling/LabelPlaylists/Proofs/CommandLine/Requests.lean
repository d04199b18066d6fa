import LabelPlaylists.CommandLine.Run
import LabelPlaylists.Proofs.Account.Service
import LabelPlaylists.Proofs.Library.Orderly

namespace LabelPlaylists

open Spotify (Call)

namespace Request

-- Requests that have nothing to do with playlists.
def IsQuiet : Request → Prop
  | .library (.addPlaylist ..) => False
  | .library c => c.IsCareful
  | .call _ .profile | .call _ (.savedTracks ..) | .call _ (.artists _) => True
  | .grant _ | .now | .log _ | .session | .setSession _ => True
  | .print _ | .complain _ | .prompt _ | .secret => True
  | _ => False

-- Requests that change neither the library nor the session and are no calls of Spotify.
def IsIdle : Request → Prop
  | .library c => ¬c.Writes
  | .grant _ | .now | .log _ | .session => True
  | .print _ | .complain _ | .prompt _ | .secret => True
  | _ => False

-- Requests that create and record playlists.
def IsProviding : Request → Prop
  | .library (.addPlaylist ..) | .call _ (.createPlaylist ..) => True
  | _ => False

-- Requests that change the items of playlists.
def IsFilling : Request → Prop
  | .call _ (.replaceItems ..) | .call _ (.addItems ..) | .call _ (.removeItems ..) => True
  | _ => False

theorem IsIdle.isQuiet {r : Request} (h : r.IsIdle) : r.IsQuiet := by
  cases r <;> try exact h.elim
  case library c =>
    cases c <;> try exact trivial
    case addAlbums   => simp [not_not.mp h, IsQuiet, Library.Command.IsCareful]
    case addArtists  => simp [not_not.mp h, IsQuiet, Library.Command.IsCareful]
    case addTrack    => exact absurd trivial h
    case addPlaylist => exact h trivial
  all_goals exact trivial

theorem covers_quiet : Covers IsQuiet := by
  constructor <;> intros <;> trivial

end Request

open Program (Asks)

variable {P : Request → Prop}

theorem asks_print {text : String} (hp : P (.print text)) : (Program.print text).Asks P :=
  .ask hp fun _ => .done

theorem asks_library {c : Library.Command} (hc : P (.library c)) : (Program.library c).Asks P :=
  .ask hc fun reply => by cases reply <;> constructor

theorem asks_library_bind {c : Library.Command} {f : c.Reply → Program α} (hc : P (.library c))
    (hf : ∀ a, (f a).Asks P) : (Program.library c >>= f).Asks P :=
  (asks_library hc).bind hf

theorem asks_ofExcept {found : Except Failure α} : (Program.ofExcept found).Asks P := by
  cases found <;> constructor

namespace Account

theorem asks_execute {token : String} {c : Call} {schema : Spotify.Schema α} (hc : P (.call token c))
    (hl : ∀ level logger message, P (.log { level, logger, message })) :
    (Service.execute token c schema).Asks P := by
  refine .ask hc fun reply => ?_
  cases reply
  case error trouble =>
    refine Asks.bind ?_ fun _ => .fail
    cases trouble <;> first | exact .done | exact asks_log (hl ..)
  case ok body =>
    dsimp only
    split
    case h_1 => exact .done
    case h_2 => exact (asks_log (hl ..)).bind fun _ => .fail

-- All that is asked for besides the call itself is a valid token.
theorem asks_call {c : Call} {schema : Spotify.Schema α} (hc : ∀ token, P (.call token c))
    (ha : Request.Covers P) : (Service.call c schema).Asks P :=
  (asks_validToken ha).bind fun _ => asks_execute (hc _) ha.log

theorem asks_artists {ids : List String} (hc : ∀ token ids, P (.call token (.artists ids)))
    (ha : Request.Covers P) : (Service.artists ids).Asks P := by
  unfold Service.artists
  induction pieces Service.moreArtists ids
  case nil => exact .done
  case cons batch rest hr =>
    refine (asks_log (ha.log ..)).bind fun _ => ?_
    exact (asks_call (fun _ => hc _ _) ha).bind fun _ => hr.bind fun _ => .done

theorem asks_exchangeCode {code redirectUri : String} (hg : ∀ f, P (.grant f))
    (hl : ∀ level logger message, P (.log { level, logger, message })) :
    (exchangeCode code redirectUri).Asks P := by
  refine (asks_requestGrant (hg _) hl).bind fun g => ?_
  split
  case h_1 => exact .fail
  case h_2 => split <;> constructor

theorem asks_login {code redirectUri : String} : (login code redirectUri).Asks Request.IsQuiet := by
  refine (asks_exchangeCode (fun _ => trivial) fun _ _ _ => trivial).bind fun _ => ?_
  refine (asks_expiry trivial).bind fun _ => ?_
  refine (asks_execute trivial fun _ _ _ => trivial).bind fun _ => ?_
  exact asks_library_bind trivial fun _ => (asks_log trivial).bind fun _ => .done

end Account

namespace Favorites

variable {items : List Spotify.SavedTrack} {workers : Int}

theorem isCareful_addAlbums {albums : List Spotify.Album} :
    (Library.Command.addAlbums (albums.map albumValues)).IsCareful := by
  intro v hv
  have ⟨a, _, he⟩ := List.mem_map.mp hv
  simp [← he, albumValues, Library.Store.albumValues]

theorem isCareful_addArtists {artists : List Spotify.Artist} :
    (Library.Command.addArtists (artists.map artistValues)).IsCareful := by
  intro v hv
  have ⟨a, _, he⟩ := List.mem_map.mp hv
  simp [← he, artistValues, Library.Store.artistValues]

theorem asks_addMissingArtists {ids : List String} (hc : ∀ token ids, P (.call token (.artists ids)))
    (ha : Request.Covers P) (hk : ∀ ids : List String, P (.library (.knownArtists (ids.map .text))))
    (hn : ∀ artists : List Spotify.Artist, P (.library (.addArtists (artists.map artistValues)))) :
    (addMissingArtists ids).Asks P := by
  refine asks_library_bind (hk _) fun known => ?_
  dsimp only
  split
  case isTrue  => exact .done
  case isFalse => exact (Account.asks_artists hc ha).bind fun artists => asks_library (hn _)

-- Requests among which are all by which a page is added.
structure AllowsPage (P : Request → Prop) (items : List Spotify.SavedTrack) : Prop where
  covers       : Request.Covers P
  artists      : ∀ token ids, P (.call token (.artists ids))
  addAlbums    : P (.library (.addAlbums ((albumsOf items).map albumValues)))
  knownArtists : ∀ ids : List String, P (.library (.knownArtists (ids.map .text)))
  addArtists   : ∀ artists : List Spotify.Artist, P (.library (.addArtists (artists.map artistValues)))
  knownTracks  : ∀ u ids, P (.library (.knownTracks u ids))
  addTrack     : ∀ u (i : Spotify.SavedTrack),
    P (.library (.addTrack (.integer u) (trackValues i) (i.track.artists.map fun a => .text a.id)))

theorem AllowsPage.addTracks {page : List Spotify.SavedTrack} (h : AllowsPage P page) {u : Int} :
    (addTracks u items).Asks P := by
  induction items
  case nil => exact .done
  case cons i rest hr =>
    exact asks_library_bind (h.addTrack u i) fun _ => (Account.asks_log (h.covers.log ..)).bind fun _ => hr

theorem AllowsPage.addPage (h : AllowsPage P items) {sum : Summary} : (addPage workers items sum).Asks P := by
  unfold Favorites.addPage
  split
  case isTrue => exact .done
  case isFalse =>
    split
    case isTrue => exact .fail
    case isFalse =>
      have hartists : (addMissingArtists (artistIdsOf items)).Asks P :=
        asks_addMissingArtists h.artists h.covers h.knownArtists h.addArtists
      refine Asks.bind (asks_library h.addAlbums).outcome fun _ => hartists.outcome.bind fun _ => ?_
      refine asks_ofExcept.bind fun _ => asks_ofExcept.bind fun _ => ?_
      refine (Account.asks_session h.covers.session).bind fun _ => asks_library_bind (h.knownTracks ..) fun _ => ?_
      exact h.addTracks.bind fun _ => .done

theorem allowsPage_quiet : AllowsPage Request.IsQuiet items where
  covers           := Request.covers_quiet
  artists _ _      := trivial
  addAlbums        := isCareful_addAlbums
  knownArtists _   := trivial
  addArtists _     := isCareful_addArtists
  knownTracks _ _  := trivial
  addTrack u i v hv := by
    have ⟨a, _, he⟩ := List.mem_map.mp hv
    simp [← he]

theorem asks_pullFrom {pages offset limit : Nat} {sum : Summary} :
    (pullFrom workers pages offset limit sum).Asks Request.IsQuiet := by
  induction pages generalizing offset limit sum
  case zero => exact .done
  case succ pages hr =>
    refine Asks.bind ?_ fun page => allowsPage_quiet.addPage.bind fun r => (Account.asks_log trivial).bind fun _ => ?_
    case refine_1 =>
      refine (Account.asks_log trivial).bind fun _ => ?_
      exact Account.asks_call (fun _ => trivial) Request.covers_quiet
    case refine_2 =>
      split
      case isTrue  => exact hr
      case isFalse => exact .done

theorem asks_pull {pages : Nat} : (pull pages workers).Asks Request.IsQuiet :=
  asks_pullFrom.bind fun _ => (Account.asks_log trivial).bind fun _ => .done

end Favorites

namespace CommandLine

-- What a command does once its session is chosen. A push is not among them.
inductive IsErrand : Program Unit → Prop
  | login (s : Settings) : IsErrand (login s)
  | pull (s : Settings) : IsErrand (pull s)
  | listTracks (criteria : Option String) (limit page : Int) : IsErrand (listTracks criteria limit page)
  | listLabels : IsErrand listLabels
  | createLabel (name : String) (criteria : Option String) : IsErrand (createLabel name criteria)
  | setCriteria (name : String) (criteria : Option String) : IsErrand (setCriteria name criteria)
  | addTracks (name : String) (ids : List String) : IsErrand (addTracks name ids)
  | removeTracks (name : String) (ids : List String) : IsErrand (removeTracks name ids)

variable {name : String} {u l : Int} {ids : List String}

theorem asks_label : (label u name).Asks Request.IsQuiet :=
  asks_library_bind trivial fun found => by cases found <;> constructor

theorem asks_storedTrack {id : String} : (storedTrack? u id).Asks Request.IsQuiet := asks_library trivial

theorem asks_addEach : (addEach u l ids).Asks Request.IsQuiet := by
  induction ids
  case nil => exact .done
  case cons id rest hr =>
    refine asks_storedTrack.bind fun found => ?_
    cases found
    case none => exact .fail
    case some => exact asks_library_bind trivial fun _ => hr

theorem asks_removeEach : (removeEach u l ids).Asks Request.IsQuiet := by
  induction ids
  case nil => exact .done
  case cons id rest hr =>
    refine asks_storedTrack.bind fun found => ?_
    cases found
    case none => exact hr
    case some => exact asks_library_bind trivial fun _ => hr

theorem asks_tracksOfPage {criteria : Option String} {limit page : Int} :
    (tracksOfPage u criteria limit page).Asks Request.IsIdle := by
  unfold tracksOfPage
  cases criteria
  case none => exact asks_library id
  case some text =>
    refine Asks.bind ?_ fun _ => asks_library_bind id fun _ => .done
    unfold requireValid
    split <;> constructor

-- No errand but a push has to do with playlists.
theorem IsErrand.asks {t : Program Unit} (h : IsErrand t) : t.Asks Request.IsQuiet := by
  have hsession : Program.session.Asks Request.IsQuiet := Account.asks_session trivial
  have hprint {text : String} : (Program.print text).Asks Request.IsQuiet := asks_print trivial
  cases h
  case login s =>
    refine Asks.bind (.ask trivial fun _ => .done) fun _ => hprint.bind fun _ => hprint.bind fun _ => ?_
    refine hprint.bind fun _ => Asks.bind (.ask trivial fun _ => .done) fun pasted => ?_
    cases pasted
    case none => exact .fail
    case some =>
      dsimp only
      split
      case h_1 => exact .fail
      case h_2 => exact Account.asks_login.bind fun _ => hprint
  case pull         => exact Favorites.asks_pull.bind fun _ => hprint
  case listTracks   =>
    refine hsession.bind fun _ => (asks_tracksOfPage.mono fun _ => Request.IsIdle.isQuiet).bind fun _ => ?_
    split <;> exact hprint
  case listLabels   =>
    refine hsession.bind fun _ => asks_library_bind trivial fun _ => ?_
    split <;> exact hprint
  case createLabel  =>
    refine hsession.bind fun _ => asks_library_bind trivial fun found => ?_
    cases found
    case some => exact .fail
    case none => exact asks_library_bind trivial fun _ => hprint
  case setCriteria  =>
    exact hsession.bind fun _ => asks_label.bind fun _ => asks_library_bind trivial fun _ => hprint
  case addTracks    =>
    exact hsession.bind fun _ => asks_label.bind fun _ => asks_addEach.bind fun _ => hprint
  case removeTracks =>
    exact hsession.bind fun _ => asks_label.bind fun _ => asks_removeEach.bind fun _ => hprint

end CommandLine

end LabelPlaylists
