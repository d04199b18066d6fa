import LabelPlaylists.Account.Service
import LabelPlaylists.Program.Parallel
import LabelPlaylists.Spotify.Objects
import LabelPlaylists.Web.Form

/-!
Pulling favorites into the library, newest first and page by page: five on the first page and
twenty-five on each further one. Albums and artists of a page are added if they are new, then its new
tracks from the oldest on. A page that is not entirely new is the last one: all that is older is
taken to be there already.
-/

namespace LabelPlaylists.Favorites

-- A release date of a year or of a year and a month as a full day: missing parts are the first, and
-- parts beyond the third are dropped.
def releaseDay (date : String) : String :=
  let parts := (Web.splitAt '-' date.toList).take 3
  let parts := parts ++ List.replicate (3 - parts.length) ['0', '1']
  "-".intercalate (parts.map String.ofList)

def placeholderImage (name : String) : String :=
  "https://via.placeholder.com/640.jpg?text="
    ++ String.ofList (Web.percentEncode ['!', '*', '\x27', '(', ')'] name)

def thumbnail (a : Spotify.Album) : String :=
  match a.images with
  | image :: _ => image.url
  | [] => placeholderImage a.name

open Account (Service.artists Service.savedTracks)

def logger : String := "playlist_gen.sync.favorites"

structure Summary where
  pages : Nat := 0
  albums : Nat := 0
  artists : Nat := 0
  tracks : Nat := 0
deriving DecidableEq, Repr

def albumValues (a : Spotify.Album) : Library.AlbumValues :=
  ⟨.text a.id, .text a.name, .text (thumbnail a), .text (releaseDay a.releaseDate)⟩

def artistValues (a : Spotify.Artist) : Library.ArtistValues :=
  ⟨.text a.id, .text a.name, (Json.arr (a.genres.map .str)).text⟩

def trackValues (item : Spotify.SavedTrack) : Library.TrackValues :=
  ⟨.text item.track.id, .text item.track.name, .text item.track.album.id, .text item.addedAt,
    item.track.explicit⟩

-- Puts an album in the place of the one with the same id, or at the end.
def putAlbum (albums : List Spotify.Album) (a : Spotify.Album) : List Spotify.Album :=
  match albums with
  | [] => [a]
  | b :: rest => if b.id = a.id then a :: rest else b :: putAlbum rest a

-- The albums of a page, each once; of two with the same id the later one.
def albumsOf (items : List Spotify.SavedTrack) : List Spotify.Album :=
  (items.map (·.track.album)).foldl putAlbum []

def distinct (texts : List String) : List String :=
  texts.foldl (fun seen s => if seen.contains s then seen else seen ++ [s]) []

def artistIdsOf (items : List Spotify.SavedTrack) : List String :=
  distinct (items.flatMap fun i => i.track.artists.map (·.id))

def addMissingArtists (ids : List String) : Program Nat := do
  let known ← Program.library (.knownArtists (ids.map .text))
  let missing := ids.filter fun id => !known.contains id
  if missing.isEmpty then return 0
  let artists ← Service.artists missing
  Program.library (.addArtists (artists.map artistValues))

-- The items whose tracks are not known, the first of each track.
def newItems (known : List String) : List Spotify.SavedTrack → List Spotify.SavedTrack
  | [] => []
  | i :: rest =>
    if known.contains i.track.id then newItems known rest
    else i :: newItems (i.track.id :: known) rest

-- Items from the oldest on; items favored at the same time keep their order.
def oldestFirst (items : List Spotify.SavedTrack) : List Spotify.SavedTrack :=
  items.mergeSort fun a b => !(b.addedAt < a.addedAt)

def addTracks (userId : Int) : List Spotify.SavedTrack → Program Unit
  | [] => .done ()
  | i :: rest => do
    let _ ← Program.library <| .addTrack (.integer userId) (trackValues i)
      (i.track.artists.map fun a => .text a.id)
    Program.log .debug logger ("Stored: " ++ i.track.name ++ " (" ++ i.track.id ++ ")")
    addTracks userId rest

def required (found : Except Failure α) : Program α := .ofExcept found

def addPage (workers : Int) (items : List Spotify.SavedTrack) (sum : Summary) :
    Program (Nat × Summary) := do
  if items.isEmpty then return (0, sum)
  if workers < 1 then .fail .noWorkers
  else
    let albums ← (Program.library (.addAlbums ((albumsOf items).map albumValues))).outcome
    let artists ← (addMissingArtists (artistIdsOf items)).outcome
    let albums ← required albums
    let artists ← required artists
    let s ← Program.session
    let known ← Program.library <|
      .knownTracks (.integer s.userId) (items.map fun i => .text i.track.id)
    let new := newItems known items
    addTracks s.userId (oldestFirst new)
    return (new.length, { sum with albums := sum.albums + albums, artists := sum.artists + artists,
                                   tracks := sum.tracks + new.length })

def firstPage : Nat := 5

def furtherPage : Nat := 25

-- Pulls pages from an offset on. The first argument bounds their number.
def pullFrom (workers : Int) : Nat → Nat → Nat → Summary → Program Summary
  | 0, _, _, sum => .done sum
  | pages + 1, offset, limit, sum => do
    let page ← Service.savedTracks offset limit
    let (count, sum) ← addPage workers page.items { sum with pages := sum.pages + 1 }
    Program.log .debug logger
      ("Page " ++ toString sum.pages ++ " (offset=" ++ toString offset ++ ", limit="
        ++ toString limit ++ "): " ++ toString count ++ " new tracks")
    if count = limit then pullFrom workers pages (offset + limit) furtherPage sum
    else return sum

-- Pulls the favorites that are new, at most so many pages.
def pull (maxPages : Nat) (workers : Int) : Program Summary := do
  let sum ← pullFrom workers maxPages 0 firstPage {}
  Program.log .info logger
    ("Pulled " ++ toString sum.tracks ++ " new tracks (" ++ toString sum.albums ++ " albums, "
      ++ toString sum.artists ++ " artists) in " ++ toString sum.pages ++ " page(s)")
  return sum

end LabelPlaylists.Favorites
