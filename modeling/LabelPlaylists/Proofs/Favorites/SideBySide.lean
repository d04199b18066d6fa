import LabelPlaylists.Proofs.CommandLine.Requests
import LabelPlaylists.Proofs.Favorites.Loop
import LabelPlaylists.Proofs.Program.Interleaved

namespace LabelPlaylists.Favorites

open Spotify (SavedTrack)

-- Ways to store the albums and the artists of pages, whose numbers are the results.
abbrev Storing := List SavedTrack → Program (Except Failure Nat × Except Failure Nat)

-- The albums of a page are stored beside its artists. There are workers for both, so nothing is said about
-- the order of what the two ask for.
def Storing.IsParallel (side : Storing) : Prop :=
  ∀ items, (Program.library (.addAlbums ((albumsOf items).map albumValues))).outcome.Beside
    (addMissingArtists (artistIdsOf items)).outcome (side items)

def inTurn : Storing := fun items => do
  let albums ← (Program.library (.addAlbums ((albumsOf items).map albumValues))).outcome
  let artists ← (addMissingArtists (artistIdsOf items)).outcome
  return (albums, artists)

theorem isParallel_inTurn : Storing.IsParallel inTurn := fun _ => Program.beside_outcome _ _

-- A pull that stores the albums and the artists of its pages in the given way.

def addPageBy (side : Storing) (workers : Int) (items : List SavedTrack) (sum : Summary) :
    Program (Nat × Summary) := do
  if items.isEmpty then return (0, sum)
  if workers < 1 then .fail .noWorkers
  else
    let (albums, artists) ← side items
    let albums ← required albums
    let artists ← required artists
    let s ← Program.session
    let known ← Program.library <|
      .knownTracks (.integer s.userId) (items.map fun i => .text i.track.id)
    let new := newItems known items
    addTracks s.userId (oldestFirst new)
    return (new.length, { sum with albums := sum.albums + albums, artists := sum.artists + artists,
                                   tracks := sum.tracks + new.length })

def turnBy (side : Storing) (workers : Int) (offset limit : Nat) (sum : Summary) :
    Program (Nat × Summary) := do
  let page ← Account.Service.savedTracks offset limit
  let (count, sum) ← addPageBy side workers page.items { sum with pages := sum.pages + 1 }
  Program.log .debug logger
    ("Page " ++ toString sum.pages ++ " (offset=" ++ toString offset ++ ", limit="
      ++ toString limit ++ "): " ++ toString count ++ " new tracks")
  return (count, sum)

def pullFromBy (side : Storing) (workers : Int) : Nat → Nat → Nat → Summary → Program Summary
  | 0, _, _, sum => .done sum
  | pages + 1, offset, limit, sum => do
    let (count, sum) ← turnBy side workers offset limit sum
    if count = limit then pullFromBy side workers pages (offset + limit) furtherPage sum
    else return sum

def pullBy (side : Storing) (pages : Nat) (workers : Int) : Program Summary :=
  pullFromBy side workers pages (offset 0) (limit 0) {} >>= finish

variable {workers : Int}

theorem addPageBy_inTurn {items : List SavedTrack} {sum : Summary} :
    addPageBy inTurn workers items sum = addPage workers items sum := by
  unfold addPageBy addPage inTurn
  simp only [bind, Program.bind_assoc]
  rfl

theorem turnBy_inTurn {offset limit : Nat} {sum : Summary} :
    turnBy inTurn workers offset limit sum = turn workers offset limit sum := by
  simp only [turnBy, turn, addPageBy_inTurn]

theorem pullFromBy_inTurn {pages offset limit : Nat} {sum : Summary} :
    pullFromBy inTurn workers pages offset limit sum = pullFrom workers pages offset limit sum := by
  induction pages generalizing offset limit sum
  case zero => rfl
  case succ pages hi =>
    rw [pullFrom_succ, pullFromBy, turnBy_inTurn]
    simp only [hi]

-- The usual pull stores the albums of a page before its artists.
theorem pullBy_inTurn {pages : Nat} : pullBy inTurn pages workers = pull pages workers := by
  rw [pull_eq, pullBy, pullFromBy_inTurn]

end LabelPlaylists.Favorites
