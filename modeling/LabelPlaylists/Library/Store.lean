import LabelPlaylists.Library.Command

/-!
An open library: what is saved and what the tables hold at the moment. An operation makes its
changes permanent at its end. If the store refuses a statement, all changes since the last time are
taken back. A number that is too large for the store ends an operation in its middle: what it has
changed before stays in the tables, and the next operation that succeeds makes it permanent.
-/

namespace LabelPlaylists.Library

structure Store where
  path : String
  saved : Tables
  tables : Tables
  changes : Nat
deriving DecidableEq, Repr

abbrev Work (α : Type) := Store → Except Failure α × Store

namespace Work

def pure (a : α) : Work α := fun s => (.ok a, s)

def bind (w : Work α) (f : α → Work β) : Work β := fun s =>
  match w s with
  | (.ok a, s) => f a s
  | (.error e, s) => (.error e, s)

instance : Monad Work where
  pure := Work.pure
  bind := Work.bind

def fail (e : Failure) : Work α := fun s => (.error e, s)

def current : Work Tables := fun s => (.ok s.tables, s)

-- Why the store does not take values, if it does not; the first one in order counts.
def refusal? (place : Nat) : List Datum → Option Failure
  | [] => none
  | .integer n :: rest =>
    if Datum.IsStorable n then refusal? (place + 1) rest else some .numberTooLarge
  | .foreign kind :: _ => some (.fault (.unsupported place kind))
  | _ :: rest => refusal? (place + 1) rest

def bound (values : List Datum) : Work Unit := fun s =>
  match refusal? 1 values with
  | none => (.ok (), s)
  | some f => (.error f, s)

def stamp (now : Moment) : Work String := fun s =>
  if now.inUtc.InRange then (.ok now.inUtc.text, s) else (.error .timeOutOfRange, s)

def change (f : Tables → Change) : Work Nat := fun s =>
  match f s.tables with
  | .ok (tables, n) => (.ok n, { s with tables, changes := s.changes + n })
  | .error fault => (.error (.fault fault), s)

-- Runs a statement for every item, as long as the values of the items fit.
def changeEach (values : α → List Datum) (f : α → Tables → Change) : List α → Work Nat
  | [] => Work.pure 0
  | a :: rest => do
    bound (values a)
    let n ← change (f a)
    let m ← changeEach values f rest
    Work.pure (n + m)

def commit : Work Unit := fun s => (.ok (), { s with saved := s.tables })

def ask (f : Tables → Except Fault α) : Work α := fun s =>
  match f s.tables with
  | .ok a => (.ok a, s)
  | .error fault => (.error (.fault fault), s)

end Work

namespace Store

open Work (bound change changeEach commit ask current fail stamp)

-- Tracks can be given to a label only if it exists and is static.
def staticLabel (id : Datum) : Work Int := do
  bound [id]
  match id.whole?.bind (← current).label? with
  | none => fail (.noSuchLabel id)
  | some l => if l.criteria.isSome then fail (.smartLabel id) else pure l.id

def userValues (v : UserValues) : List Datum :=
  [v.spotifyId, v.avatarUrl, v.accessToken, v.refreshToken]

def albumValues (v : AlbumValues) : List Datum := [v.id, v.name, v.thumbnailUrl, v.releasedOn]

def artistValues (v : ArtistValues) : List Datum := [v.id, v.name]

def trackValues (user : Datum) (v : TrackValues) : List Datum :=
  [user, v.spotifyId, v.name, v.albumId, v.addedAt]

def filterValues (f : Option Sql.Filter) : List Datum := (f.map (·.parameters)).getD []

def work (now : Moment) : (c : Command) → Work c.Reply
  | .putUser v expiresAt => do
    let now ← stamp now
    bound (userValues v)
    let _ ← change (·.putUser v expiresAt.text now)
    commit
    return ((v.spotifyId.text?.bind (← current).userNamed?).map (·.id)).getD 0
  | .user id => do
    bound [id]
    return id.whole?.bind (← current).user?
  | .userNamed spotifyId => do
    bound [spotifyId]
    return spotifyId.text?.bind (← current).userNamed?
  | .users => return (← current).users
  | .setTokens user accessToken expiresAt refreshToken => do
    let now ← stamp now
    bound [accessToken, .text expiresAt.text, refreshToken, .text now, user]
    let _ ← change (·.setTokens user accessToken expiresAt.text refreshToken now)
    commit
  | .addAlbums albums => do
    if albums.isEmpty then return 0
    let n ← changeEach albumValues (fun v t => .ok (t.addAlbum v)) albums
    commit
    return n
  | .knownArtists ids => do
    bound ids
    return (← current).knownArtists ids
  | .addArtists artists => do
    if artists.isEmpty then return 0
    let n ← changeEach artistValues (fun v t => .ok (t.addArtist v)) artists
    commit
    return n
  | .artist id => do
    bound [id]
    return id.text?.bind (← current).artist?
  | .knownTracks user ids => do
    if ids.isEmpty then return []
    bound (user :: ids)
    return (← current).knownTracks user ids
  | .addTrack user track artists => do
    bound (trackValues user track)
    let _ ← change (·.addTrack user track)
    let id := (← current).lastTrack
    let _ ← changeEach (fun a => [.integer id, a]) (fun a t => t.addCredit id a) artists
    commit
    return id
  | .trackNamed user spotifyId => do
    bound [user, spotifyId]
    let t ← current
    return do (← t.trackOf? (← user.whole?) (← spotifyId.text?)) |> t.view?
  | .countTracks user => do
    bound [user]
    return ((← current).tracksOf user).length
  | .tracks user limit offset => do
    bound [user, limit, offset]
    ask (·.trackPage user limit offset)
  | .find user filter => do
    bound (user :: filterValues filter)
    ask (·.find user filter)
  | .addLabel user name criteria => do
    let now ← stamp now
    bound [user, name, criteria]
    let _ ← change (·.addLabel user name criteria now)
    commit
    return (← current).lastLabel
  | .setCriteria label criteria => do
    bound [criteria, label]
    let _ ← change fun t => .ok (t.setCriteria label criteria)
    if criteria ≠ .null then
      let _ ← change fun t => .ok (t.clearLabel label)
    commit
  | .label id => do
    bound [id]
    return id.whole?.bind (← current).label?
  | .labelNamed user name => do
    bound [user, name]
    let t ← current
    return do t.labelNamed? (← user.whole?) (← name.text?)
  | .labels user => do
    bound [user]
    return (← current).labelsOf user
  | .labelsWithoutPlaylist user => do
    bound [user]
    return (← current).labelsWithoutPlaylist user
  | .addMembership track label => do
    let id ← staticLabel label
    bound [track]
    let _ ← change (·.addMembership track id)
    commit
  | .removeMembership track label => do
    let id ← staticLabel label
    bound [track]
    let _ ← change fun t => .ok (t.removeMembership track id)
    commit
  | .labelTracks label => do
    bound [label]
    return (← current).labelTracks label
  | .addPlaylist user label spotifyId => do
    bound [user, label, spotifyId]
    let _ ← change (·.addPlaylist user label spotifyId)
    commit
    return (← current).lastPlaylist
  | .playlists user => do
    bound [user]
    return (← current).playlistsOf user
  | .changes => fun s => (.ok s.changes, s)

def rollback (s : Store) : Store := { s with tables := s.saved }

def perform (now : Moment) (c : Command) (s : Store) : Except Failure c.Reply × Store :=
  match work now c s with
  | (.error (.fault f), s) => (.error (.fault f), s.rollback)
  | outcome => outcome

-- A new library at a path: its version is the first row touched.
def create (path : String) : Store :=
  let tables : Tables := { version := some layoutVersion }
  ⟨path, tables, tables, 1⟩

-- Opens the library that a file holds. A missing version is put in.
def open? (path : String) (tables : Tables) : Except OpenFailure Store :=
  match tables.version with
  | none =>
    let tables := { tables with version := some layoutVersion }
    .ok ⟨path, tables, tables, 1⟩
  | some v => if v = layoutVersion then .ok ⟨path, tables, tables, 0⟩ else .error (.wrongVersion v)

-- Closes the library and opens it again; what was not permanent is gone.
def reconnect (s : Store) : Store := { s with tables := s.saved, changes := 0 }

end Store

end LabelPlaylists.Library
