import LabelPlaylists.Proofs.Favorites.Sample
import LabelPlaylists.Proofs.Favorites.SideBySide
import LabelPlaylists.Proofs.Favorites.Stored
import LabelPlaylists.Proofs.Library.Commute

namespace LabelPlaylists

open Library (Accepts Command Tables)

-- Whoever else answers a program, and what has become of them: Spotify, the token endpoint, the clock.
-- None of them notices that albums are added to the library.
structure Elsewhere (ρ : Type) where
  clock  : ρ → Moment
  reply  : (r : Request) → ρ → r.Reply
  after  : Request → ρ → ρ
  albums : ∀ {vs w}, after (.library (.addAlbums vs)) w = w

variable {ρ : Type} {E : Elsewhere ρ}

namespace Elsewhere

def answer (E : Elsewhere ρ) : (r : Request) → Scene × ρ → r.Reply × Scene × ρ
  | .library c, (a, w) =>
    let (reply, library) := a.library.perform (E.clock w) c
    (reply, { a with library }, E.after (.library c) w)
  | .call token c, (a, w) =>
    (E.reply (.call token c) w, { a with calls := a.calls ++ [c] }, E.after (.call token c) w)
  | .now, (a, w) =>
    (if (E.clock w).inUtc.InRange then some (E.clock w).inUtc else none, a, E.after .now w)
  | .session, (a, w)      => (a.session, a, E.after .session w)
  | .setSession x, (a, w) => ((), { a with session := some x }, E.after (.setSession x) w)
  | r, (a, w)             => (E.reply r w, a, E.after r w)

def surroundings (E : Elsewhere ρ) : Surroundings (Scene × ρ) where
  answer     := E.answer
  scene      := Prod.fst
  clock s    := E.clock s.2
  library _  := rfl
  call       := rfl
  grant      := rfl
  now        := rfl
  log        := rfl
  session    := rfl
  setSession := rfl

end Elsewhere

-- Requests that neither see the albums of the library nor change them, nor its tracks.
inductive Request.SparesAlbums : Request → Prop
  | artists {c : Command} : (∀ m, c.StaysIn .artists m) → SparesAlbums (.library c)
  | users {c : Command} : (∀ m, c.StaysIn .users m) → SparesAlbums (.library c)
  | now : SparesAlbums .now
  | outside {r} : r.IsOutside → SparesAlbums r

namespace Request

variable {vs : List Library.AlbumValues} {c : Command} {r : Request}

theorem covers_sparesAlbums : Covers SparesAlbums where
  log _ _ _         := .outside trivial
  session           := .outside trivial
  setSession _      := .outside trivial
  now               := .now
  grant _           := .outside trivial
  setTokens _ _ _ _ := .users fun _ => .setTokens

-- Albums are added beside an operation that stays in another place.
theorem commute_of_staysIn {q : Tables.Place β} (hv : ∀ v ∈ vs, ∀ d ∈ Library.Store.albumValues v, Accepts d)
    (hq : Tables.Place.albums.Apart q) (hc : ∀ m, c.StaysIn q m) :
    Request.Commute E.answer (.library (.addAlbums vs)) (.library c) := by
  have h (s : Scene × ρ) :=
    (Command.StaysIn.addAlbums (m := E.clock s.2) hv).commute (hc (E.clock s.2)) hq s.1.library
  constructor <;> intro s <;> simp only [Elsewhere.answer, E.albums]
  case left  => exact (h s).left
  case right => exact (h s).right.left
  case both  => rw [(h s).right.right]; rfl

theorem commute_addAlbums (hv : ∀ v ∈ vs, ∀ d ∈ Library.Store.albumValues v, Accepts d) (hr : r.SparesAlbums) :
    Request.Commute E.answer (.library (.addAlbums vs)) r := by
  cases hr
  case artists hc => exact commute_of_staysIn hv Tables.Place.albums_apart_artists hc
  case users hc   => exact commute_of_staysIn hv Tables.Place.albums_apart_users hc
  case now        => constructor <;> intro s <;> simp only [Elsewhere.answer, E.albums] <;> rfl
  case outside ho =>
    cases r <;> try exact ho.elim
    all_goals constructor <;> intro s <;> simp only [Elsewhere.answer, E.albums] <;> rfl

theorem SparesAlbums.tracks (hr : r.SparesAlbums) (s : Scene × ρ) :
    (E.answer r s).2.1.library.tables.tracks = s.1.library.tables.tracks := by
  cases hr
  case artists hc => exact (hc (E.clock s.2)).tracks (fun _ _ => rfl) s.1.library
  case users hc   => exact (hc (E.clock s.2)).tracks (fun _ _ => rfl) s.1.library
  case now        => rfl
  case outside ho =>
    cases r <;> try exact ho.elim
    all_goals rfl

end Request

namespace Favorites

open Spotify (SavedTrack)

variable {items : List SavedTrack} {side : Storing} {workers : Int}

theorem asks_sparesAlbums (ids : List String) : (addMissingArtists ids).Asks Request.SparesAlbums :=
  asks_addMissingArtists (fun _ _ => .outside trivial) Request.covers_sparesAlbums
    (fun _ => .artists fun _ => .knownArtists (by simp))
    (fun _ => .artists fun _ => .addArtists isCareful_addArtists)

-- In whichever order they come to be stored, the albums and the artists of a page are stored as they are
-- one after the other.
theorem side_run (hside : side.IsParallel) (items : List SavedTrack) (s : Scene × ρ) :
    (side items).run E.answer s = (inTurn items).run E.answer s := by
  refine (hside items).run_eq (asks_library (P := (· = .library _)) rfl).outcome (asks_sparesAlbums _).outcome ?_ s
  rintro q r rfl hr
  exact Request.commute_addAlbums isCareful_addAlbums hr

section

variable {σ : Type} {answer : (r : Request) → σ → r.Reply × σ}
variable (h : ∀ items s, (side items).run answer s = (inTurn items).run answer s)
include h

theorem addPageBy_run {sum : Summary} {s : σ} :
    (addPageBy side workers items sum).run answer s = (addPage workers items sum).run answer s := by
  rw [← addPageBy_inTurn]
  unfold addPageBy
  split
  case isTrue => rfl
  case isFalse =>
    split
    case isTrue  => rfl
    case isFalse => exact Program.run_bind_congr (h ..) fun _ _ => rfl

theorem turnBy_run {offset limit : Nat} {sum : Summary} {s : σ} :
    (turnBy side workers offset limit sum).run answer s = (turn workers offset limit sum).run answer s :=
  Program.run_bind_congr rfl fun _ _ => Program.run_bind_congr (addPageBy_run h) fun _ _ => rfl

theorem pullFromBy_run {pages offset limit : Nat} {sum : Summary} {s : σ} :
    (pullFromBy side workers pages offset limit sum).run answer s
      = (pullFrom workers pages offset limit sum).run answer s := by
  induction pages generalizing offset limit sum s
  case zero => rfl
  case succ pages hi =>
    rw [pullFrom_succ]
    refine Program.run_bind_congr (turnBy_run h) fun r _ => ?_
    dsimp only
    split
    case isTrue  => exact hi
    case isFalse => rfl

theorem pullBy_run {pages : Nat} {s : σ} :
    (pullBy side pages workers).run answer s = (pull pages workers).run answer s :=
  Program.run_bind_congr (pullFromBy_run h) fun _ _ => rfl

end

/-! ## Artists that cannot be stored -/

-- A pull has come to the page with the given number, with what it has counted up to there.
inductive Comes {σ : Type} (answer : (r : Request) → σ → r.Reply × σ) (workers : Int) (s₀ : σ) :
    Nat → Summary → σ → Prop
  | first : Comes answer workers s₀ 0 {} s₀
  | next {n sum s sum' s'} :
    Comes answer workers s₀ n sum s →
    (turn workers (offset n) (limit n) sum).run answer s = (.ok (limit n, sum'), s') →
    Comes answer workers s₀ (n + 1) sum' s'

-- It goes on with that page.
theorem Comes.pullFrom {σ : Type} {answer : (r : Request) → σ → r.Reply × σ} {s₀ s : σ} {n rest : Nat}
    {sum : Summary} (h : Comes answer workers s₀ n sum s) :
    (pullFrom workers (n + rest) (offset 0) (limit 0) {}).run answer s₀
      = (pullFrom workers rest (offset n) (limit n) sum).run answer s := by
  induction h generalizing rest
  case first => rw [Nat.zero_add]
  case next n _ _ _ _ _ ht hi =>
    rw [Nat.add_right_comm, Nat.add_assoc, hi, pullFrom_succ, Program.run_bind_ok ht, if_pos rfl]
    rfl

variable {s s' : Scene × ρ} {e : Failure} {sum : Summary}

theorem addAlbums_run (items : List SavedTrack) (s : Scene × ρ) :
    ∃ n, (Program.library (.addAlbums ((albumsOf items).map albumValues))).run E.answer s
      = (.ok n, (E.answer (.library (.addAlbums ((albumsOf items).map albumValues))) s).2) := by
  obtain ⟨n, l, hp, _⟩ := s.1.library.perform_addAlbums (E.clock s.2) ((albumsOf items).map albumValues)
    isCareful_addAlbums
  exact ⟨n, Program.run_library (by rw [Elsewhere.answer, hp])⟩

-- All that is left of a page whose artists cannot be stored.
structure Abandoned (items : List SavedTrack) (a a' : Scene) : Prop where
  settled : Settled a'
  albums  : ∀ i ∈ items, some i.track.album.id ∈ a'.library.tables.albums.map (·.id)
  tracks  : a'.library.tables.tracks = a.library.tables.tracks

theorem addPage_run_error {σ : Type} {answer : (r : Request) → σ → r.Reply × σ} {s s₁ s₂ : σ} {n : Nat}
    (hn : items ≠ []) (hw : 1 ≤ workers)
    (ha : (Program.library (.addAlbums ((albumsOf items).map albumValues))).run answer s = (.ok n, s₁))
    (h : (addMissingArtists (artistIdsOf items)).run answer s₁ = (.error e, s₂)) :
    (addPage workers items sum).run answer s = (.error e, s₂) := by
  unfold addPage
  rw [if_neg (by simpa using hn), if_neg (by omega)]
  refine (Program.run_bind_ok (Program.run_outcome ..)).trans ?_
  rw [ha]
  refine (Program.run_bind_ok (Program.run_outcome ..)).trans ?_
  rw [h]
  rfl

-- The albums of the page are stored all the same.
theorem addPage_abandoned (sum : Summary) (hw : 1 ≤ workers)
    (h : (addMissingArtists (artistIdsOf items)).run E.answer s = (.error e, s')) :
    ∃ s'', (addPage workers items sum).run E.answer s = (.error e, s'') ∧ Abandoned items s.1 s''.1 := by
  have hn : items ≠ [] := by
    rintro rfl
    cases h
  obtain ⟨n, ha⟩ := addAlbums_run (E := E) items s
  obtain ⟨n', ha'⟩ := addAlbums_run (E := E) items s'
  -- The artists fail after the albums as they do before them.
  have hc : ∀ q : Request, q.SparesAlbums →
      q.Commute E.answer (.library (.addAlbums ((albumsOf items).map albumValues))) :=
    fun q hq => (Request.commute_addAlbums isCareful_addAlbums hq).symm
  have hrun := (Program.run_commute (asks_sparesAlbums (artistIdsOf items)) hc s).right
  rw [h] at hrun
  refine ⟨_, addPage_run_error hn hw ha hrun, ?_⟩
  obtain ⟨hsettled, _, halbums⟩ := addAlbums_inv hn (Surroundings.Runs.of_run_eq (S := E.surroundings) ha')
  refine ⟨hsettled, halbums, ?_⟩
  have ht : s'.1.library.tables.tracks = s.1.library.tables.tracks :=
    (Surroundings.Runs.of_run_eq (S := E.surroundings) h).keeps (asks_sparesAlbums _)
      (I := fun s' => s'.1.library.tables.tracks = s.1.library.tables.tracks)
      (fun hp hi => (hp.tracks _).trans hi) rfl
  exact ((Command.StaysIn.addAlbums isCareful_addAlbums).tracks (fun _ _ => rfl) _).trans ht

-- It makes no difference how the albums and the artists of pages come to be stored side by side:
-- 1. neither to the numbers of both nor to the library
-- 2. albums can always be stored
-- 3. the same tracks are added after them
-- 4. the same comes of a pull
-- 5. a pull fails as the artists of a page do, with the albums of that page stored and no track added
structure Commutes (E : Elsewhere ρ) (side : Storing) (workers : Int) : Prop where
  tasks  : ∀ items s, (side items).run E.answer s = (inTurn items).run E.answer s
  albums : ∀ items s, ∃ n s',
    (Program.library (.addAlbums ((albumsOf items).map albumValues))).run E.answer s = (.ok n, s')
  page   : ∀ items sum s,
    (addPageBy side workers items sum).run E.answer s = (addPage workers items sum).run E.answer s
  pull   : ∀ pages s, (pullBy side pages workers).run E.answer s = (pull pages workers).run E.answer s
  failed : ∀ {pages n s₀ sum s page s₁ e s₂}, 1 ≤ workers → n < pages → Comes E.answer workers s₀ n sum s →
    (Account.Service.savedTracks (offset n) (limit n)).run E.answer s = (.ok page, s₁) →
    (addMissingArtists (artistIdsOf page.items)).run E.answer s₁ = (.error e, s₂) →
    ∃ s', (pullBy side pages workers).run E.answer s₀ = (.error e, s') ∧ Abandoned page.items s₁.1 s'.1

theorem commutes_of_isParallel (hside : side.IsParallel) : Commutes E side workers where
  tasks          := side_run hside
  albums items s := ⟨_, _, (addAlbums_run items s).choose_spec⟩
  page _ _ _     := addPageBy_run (side_run hside)
  pull _ _       := pullBy_run (side_run hside)
  failed         := by
    intro pages n s₀ sum s page s₁ e s₂ hw hn hc hp h
    obtain ⟨s', hadd, habandoned⟩ := addPage_abandoned { sum with pages := sum.pages + 1 } hw h
    obtain ⟨rest, rfl⟩ := Nat.exists_eq_add_of_lt hn
    refine ⟨s', (pullBy_run (side_run hside)).trans ?_, habandoned⟩
    rw [pull_eq, Nat.add_assoc]
    refine Program.run_bind_error (hc.pullFrom.trans ?_)
    rw [pullFrom_succ]
    exact Program.run_bind_error ((Program.run_bind_ok hp).trans (Program.run_bind_error hadd))

namespace Sample

-- An account whose artists can never be looked up.
def elsewhere (favorites : List SavedTrack) : Elsewhere Unit where
  clock _   := noon
  reply r _ := match r with
    | .call _ (.artists _) => .error (.unreachable "timed out")
    | r                    => (answer favorites (fun _ => true) r (scene tables)).1
  after _ w := w
  albums    := rfl

def inReverse : Storing := fun items => do
  let artists ← (addMissingArtists (artistIdsOf items)).outcome
  let albums ← (Program.library (.addAlbums ((albumsOf items).map albumValues))).outcome
  return (albums, artists)

theorem isParallel_inReverse : Storing.IsParallel inReverse := fun _ => Program.beside_outcome_swap _ _

end Sample

open Sample in
theorem commutes_inReverse :
    Storing.IsParallel inReverse ∧ Commutes (elsewhere [favorite "t1"]) inReverse 1 ∧
      ∃ e s', (pullBy inReverse 1 1).run (elsewhere [favorite "t1"]).answer (scene { tables with albums := [] }, ())
          = (.error e, s') ∧ Abandoned [favorite "t1"] (scene { tables with albums := [] }) s'.1 := by
  have h : Commutes (elsewhere [favorite "t1"]) inReverse 1 := commutes_of_isParallel isParallel_inReverse
  refine ⟨isParallel_inReverse, h, ?_⟩
  obtain ⟨s₁, hp, ht, ha⟩ : ∃ s₁,
      (Account.Service.savedTracks (offset 0) (limit 0)).run (elsewhere [favorite "t1"]).answer
        (scene { tables with albums := [] }, ()) = (.ok ⟨[favorite "t1"]⟩, s₁) ∧
      s₁.1.library.tables.tracks = [] ∧
      ((addMissingArtists (artistIdsOf [favorite "t1"])).run (elsewhere [favorite "t1"]).answer s₁).1.toOption = none :=
    ⟨_, Prod.ext (eq_ok_of_toOption (by decide +kernel)) rfl, by decide +kernel, by decide +kernel⟩
  rcases hr : (addMissingArtists (artistIdsOf [favorite "t1"])).run (elsewhere [favorite "t1"]).answer s₁
    with ⟨e | n, s₂⟩ <;> rw [hr] at ha
  case ok    => cases ha
  case error =>
    obtain ⟨s', hs', hleft⟩ := h.failed (by decide) Nat.one_pos .first hp hr
    exact ⟨e, s', hs', hleft.settled, hleft.albums, hleft.tracks.trans ht⟩

end Favorites

end LabelPlaylists
