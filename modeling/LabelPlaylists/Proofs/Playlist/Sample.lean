import LabelPlaylists.Proofs.Playlist.History
import LabelPlaylists.Spotify.Body

namespace LabelPlaylists

open CommandLine (IsErrand)
open Library (Label Tables)
open Simulation (World)

namespace Simulation.World

-- The simulated world refuses searches if it is told to.
theorem fair : surroundings.Fair where
  find     := by
    intro u f w
    show ((w.performed (.find u f)).1, scene (w.performed (.find u f)).2) = _ ∨ _
    cases hr : w.searchFailure
    case none =>
      left
      simp only [performed, hr]
      rfl
    case some reason =>
      refine .inr ⟨⟨.outOfOrder reason, ?_, nofun⟩, ?_⟩ <;> simp [surroundings, reply, performed, hr]
  print    := rfl
  complain := rfl
  prompt   := rfl
  secret   := rfl

-- Said of any world, as concrete ones are not to be evaluated for it.

theorem library_scene (w : World) : (surroundings.scene w).library = w.library := rfl

theorem library_service (w : World) (s : Service) : ({ w with service := s } : World).library = w.library := rfl

-- With a session of the only user, if there is one.
def forOnly (w : World) : World :=
  { w with session := w.library.tables.users.head?.bind Session.ofUser? }

-- What is exchanged when commands run one after the other, each for the only user, and what they lead to.
def course (w : World) : List (Program Unit) → List (List Exchange) × World
  | [] => ([], w)
  | t :: rest =>
    let (es, _, w) := surroundings.trace t w
    let (past, w) := course w.forOnly rest
    (es :: past, w)

end Simulation.World

variable {past : List (List Exchange)} {w : World}

theorem History.course {ts : List (Program Unit)} (h : History past w.library)
    (ht : ∀ t ∈ ts, IsErrand t) : History (past ++ (w.course ts).1) (w.course ts).2.library := by
  induction ts generalizing past w
  case nil => exact (List.append_nil past).symm ▸ h
  case cons t rest hr =>
    have ⟨ht, hrest⟩ := List.forall_mem_cons.mp ht
    have h := History.errand h World.fair ht (World.surroundings.runs_trace t w)
    have h := hr (w := (World.surroundings.trace t w).2.2.forOnly) h hrest
    rw [List.append_assoc] at h
    exact h

theorem History.pushed {workers : Int} (h : History past w.library) (ha : w.scene.IsSigned)
    (hf : w.library.tables.Fits) :
    History (past ++ [(World.surroundings.trace (Playlist.push workers) w).1])
      (World.surroundings.trace (Playlist.push workers) w).2.2.library :=
  h.push World.fair ha hf (fun _ => .refl _) (fun _ => .refl _) (World.surroundings.runs_trace _ w)

theorem Scene.IsSigned.of_mem {a : Scene} {x : Session} (hx : a.session = some x)
    (h : (x.userId, x.spotifyId) ∈ a.library.tables.users.map fun v => (v.id, v.spotifyId)) :
    a.IsSigned := by
  intro y hy
  cases hx.symm.trans hy
  exact h

namespace Playlist.Sample

def settings : Settings :=
  ⟨"client", "secret", "http://localhost/callback", ["library"], 2, 30, ["logs"]⟩

def grant : Spotify.Grant := ⟨"token", 3600, some "refresh"⟩

-- The only favorite is the track that stands in empty playlists for a moment.
def favorite : Spotify.SavedTrack :=
  ⟨"2024-01-01T00:00:00Z", placeholderTrack, "Title", false, ⟨"album", "Album", "2020", []⟩,
    [⟨"artist"⟩]⟩

-- The code of a redirect is at hand, and the token endpoint is about to grant tokens for it.
def world : World where
  clock       := .ofDay ⟨2024, 6, 1⟩ 0 (some 0)
  disk        := {}
  base        := ⟨[], [], []⟩
  application := ⟨"client", "secret", 30⟩
  library     := .create "library"
  service     := { favorites := [favorite.body] }
  grants      := [.ok ⟨200, grant.body.text⟩]
  terminal    := { input := ["code"] }

def errands : List (Program Unit) := [
    CommandLine.login settings, CommandLine.pull settings, CommandLine.createLabel "Good" none,
    CommandLine.addTracks "Good" [placeholderTrack], CommandLine.createLabel "Bad" (some "year >")
  ]

-- Two labels are to get a playlist, but no playlist with the name of the second one can be created.
@[irreducible]
def refusing : World :=
  { (world.course errands).2 with service := { failingNames := [nameOf "Bad"] } }

-- After a push that has failed for the second label calls are answered again.
@[irreducible]
def answering : World :=
  let w := (World.surroundings.trace (push 2) refusing).2.2
  { w with service := { w.service with failingNames := [] } }

-- All that has been exchanged before calls are answered again.
def before : List (List Exchange) :=
  (world.course errands).1 ++ [(World.surroundings.trace (push 2) refusing).1]

def session : Session :=
  ⟨1, "alice", "token", "refresh", .ofDay ⟨2024, 6, 1⟩ (59 * 60 * 1000000) (some 0)⟩

-- The only user is in session, and few numbers have been given out.
def Stands (a : Scene) : Prop :=
  a.session = some session ∧
    a.library.tables.users.map (fun v => (v.id, v.spotifyId)) = [(1, "alice")] ∧
    (a.library.tables.lastUser, a.library.tables.lastTrack, a.library.tables.lastLabel) = (1, 1, 2)

variable {a : Scene}

instance : Decidable (Stands a) := inferInstanceAs (Decidable (_ ∧ _))

theorem Stands.isSigned (h : Stands a) : a.IsSigned := by
  refine .of_mem h.left ?_
  rw [h.right.left]
  exact List.mem_singleton_self _

theorem Stands.fits (h : Stands a) : a.library.tables.Fits := by
  have ⟨_, _, h⟩ := h
  simp only [Prod.mk.injEq] at h
  constructor <;> simp only [h] <;> decide

theorem Stands.fits_library {w : World} (h : Stands w.scene) : w.library.tables.Fits := h.fits

theorem Stands.stored {l : Library.Store} {x : Option Session} {calls : List Spotify.Call}
    (h : Stands ⟨l, x, calls⟩) : 1 ∈ l.tables.users.map (·.id) ∧ l.tables.Fits := by
  have hmap := congrArg (List.map Prod.fst) h.right.left
  rw [List.map_map] at hmap
  exact ⟨hmap ▸ List.mem_cons_self, h.fits⟩

def good : Label := ⟨1, 1, "Good", none, "2024-06-01T00:00:00+00:00"⟩

def bad : Label := ⟨2, 1, "Bad", some "year >", "2024-06-01T00:00:00+00:00"⟩

-- What has been stored by then.
def kept : Library.Store :=
  let tables : Tables := {
    version      := some 1
    users        := [⟨1, "alice", some "https://img/alice.jpg", "token", "refresh", "2024-06-01T00:59:00+00:00",
      "2024-06-01T00:00:00+00:00", "2024-06-01T00:00:00+00:00"⟩]
    albums       := [⟨some "album", "Album", some "https://via.placeholder.com/640.jpg?text=Album", some "2020-01-01"⟩]
    artists      := [⟨some "artist", "Artist artist", "[]"⟩]
    tracks       := [⟨1, 1, placeholderTrack, "Title", "album", "2024-01-01T00:00:00Z", false⟩]
    credits      := [⟨1, "artist"⟩]
    labels       := [good, bad]
    memberships  := [⟨1, 1⟩]
    playlists    := [⟨1, 1, 1, "playlist1"⟩]
    lastUser     := 1
    lastTrack    := 1
    lastLabel    := 2
    lastPlaylist := 1
  }
  ⟨"library", tables, tables, 10⟩

-- What the commands have led to is evaluated once.
theorem worlds_stand : Stands refusing.scene ∧ Stands answering.scene ∧ answering.library = kept ∧
    creations (called before.flatten) = [⟨"alice", nameOf "Good", some "playlist1"⟩] ∧
    creations (called (World.surroundings.trace (push 2) answering).1)
      = [⟨"alice", nameOf "Bad", some "playlist2"⟩] := by
  decide +kernel

theorem answering_stands : Stands answering.scene :=
  have ⟨_, h, _⟩ := worlds_stand
  h

theorem library_kept : answering.library = kept :=
  have ⟨_, _, h, _⟩ := worlds_stand
  h

theorem creations_before : creations (called before.flatten) = [⟨"alice", nameOf "Good", some "playlist1"⟩] :=
  have ⟨_, _, _, h, _⟩ := worlds_stand
  h

theorem creations_answering : creations (called (World.surroundings.trace (push 2) answering).1)
    = [⟨"alice", nameOf "Bad", some "playlist2"⟩] :=
  have ⟨_, _, _, _, h⟩ := worlds_stand
  h

theorem library_refusing : refusing.library = (world.course errands).2.library := by
  unfold refusing
  exact World.library_service ..

theorem library_answering : answering.library = (World.surroundings.trace (push 2) refusing).2.2.library := by
  unfold answering
  exact World.library_service ..

theorem history_answering : History before answering.library := by
  have ht : ∀ t ∈ errands, IsErrand t := by
    simp only [errands, List.forall_mem_cons]
    exact ⟨.login _, .pull _, .createLabel _ _, .addTracks _ _, .createLabel _ _, List.forall_mem_nil _⟩
  have h : History (world.course errands).1 refusing.library := by
    have h := History.course (w := world) .create ht
    rw [List.nil_append] at h
    rw [library_refusing]
    exact h
  have ⟨hs, _⟩ := worlds_stand
  rw [before, library_answering]
  exact h.pushed hs.isSigned hs.fits_library

end Playlist.Sample

end LabelPlaylists
