import LabelPlaylists.Proofs.CommandLine.Requests
import LabelPlaylists.Proofs.Criteria.Years
import LabelPlaylists.Proofs.Favorites.Pulled
import LabelPlaylists.Proofs.Favorites.Summary
import LabelPlaylists.Proofs.Web.Form

namespace LabelPlaylists

namespace Library

open Criteria (compile)

-- Criteria that select the same tracks of an album, in whatever library has it.
def Album.SelectsAlike (a : Album) (text text' : String) : Prop :=
  ∃ c c', compile text = .ok c ∧ compile text' = .ok c' ∧
    ∀ (l : Store) (now : Moment) (u : Int), l.tables.Sound → a ∈ l.tables.albums → Datum.IsStorable u →
      ∃ views views', (l.perform now (.find (.integer u) (some c.filter))).1 = .ok views ∧
        (l.perform now (.find (.integer u) (some c'.filter))).1 = .ok views' ∧
        ∀ r ∈ l.tables.tracks, some r.albumId = a.id →
          (r ∈ views.map (·.track) ↔ r ∈ views'.map (·.track))

theorem Album.selectsAlike {a : Album} {d : Day} {text text' : String} {c c' : Criteria.Condition}
    (hc : compile text = .ok c) (hc' : compile text' = .ok c') (h : Criteria.Agree c c')
    (ha : a.releasedOn = some (StoredDay.dayText d)) (hy : 0 ≤ d.year ∧ d.year ≤ 9999) (hd : d.Exists) :
    a.SelectsAlike text text' := by
  refine ⟨c, c', hc, hc', fun l now u hs hm hu => ?_⟩
  refine ⟨_, _, Store.perform_find_ok hu hc h.left.left h.left.right,
    Store.perform_find_ok hu hc' h.right.left h.right.right, fun r hr hi => ?_⟩
  have hr : l.tables.album? r.albumId = some a := (Tables.album?_eq_some_iff hs).mpr ⟨hm, hi.symm⟩
  have hp : l.tables.passes c.filter r = l.tables.passes c'.filter r := by
    unfold Tables.passes
    rw [hr]
    exact h.passes ⟨congrArg Datum.ofOption ha, hy, hd⟩
  rw [Tables.mem_found hs, Tables.mem_found hs, hp]

end Library

namespace Favorites

open Criteria (Agree ReleasedOn SameYears)
open Library (Album Store Tables)
open Spotify (Call SavedTrack Schema)
open Text (digitsIn isDigit_of_mem_digitsIn padded padded_toList)

/-! ## Dates of release -/

-- The release dates of Spotify: a year from 0000 to 9999, a month of it, or a day.
inductive IsReleaseDate : String → Prop
  | year {y : Nat}    : y ≤ 9999 → IsReleaseDate (padded 4 y)
  | month {y m : Nat} : y ≤ 9999 → 1 ≤ m ∧ m ≤ 12 → IsReleaseDate (padded 4 y ++ "-" ++ padded 2 m)
  | day {y m d : Nat} :
    y ≤ 9999 → (⟨y, m, d⟩ : Day).Exists →
    IsReleaseDate (padded 4 y ++ "-" ++ padded 2 m ++ "-" ++ padded 2 d)

-- Of numbers with hyphens between them the first three are taken.
theorem releaseDay_of_pieces {date : String} {pieces : List (List Char)} (hn : pieces ≠ [])
    (h : ∀ p ∈ pieces, '-' ∉ p) (hd : date.toList = ['-'].intercalate pieces) :
    releaseDay date = "-".intercalate
      ((pieces.take 3 ++ List.replicate (3 - (pieces.take 3).length) ['0', '1']).map String.ofList) := by
  unfold releaseDay
  rw [hd, Web.splitAt_intercalate hn h]

-- They come to full days, the first of the year or of the month.
theorem releaseDay_eq {date : String} (h : IsReleaseDate date) :
    ∃ d : Day, (0 ≤ d.year ∧ d.year ≤ 9999) ∧ d.Exists ∧ releaseDay date = StoredDay.dayText d := by
  have hnot (w n : Nat) : '-' ∉ digitsIn 10 w n := fun hm => by cases isDigit_of_mem_digitsIn hm
  have hlist (w n : Nat) : String.ofList (digitsIn 10 w n) = padded w n := by
    rw [← padded_toList, String.ofList_toList]
  have hone : padded 2 1 = String.ofList ['0', '1'] := by decide
  have hh : "-".toList = ['-'] := rfl
  have htext {y m d : Nat} :
      StoredDay.dayText ⟨y, m, d⟩ = "-".intercalate [padded 4 y, padded 2 m, padded 2 d] :=
    StoredDay.dayText_eq_text (Int.natCast_nonneg y)
  cases h
  case year y hy =>
    refine ⟨⟨y, 1, 1⟩, (by omega : 0 ≤ (y : Int) ∧ (y : Int) ≤ 9999), Day.exists_firstDay y, ?_⟩
    rw [releaseDay_of_pieces (List.cons_ne_nil (digitsIn 10 4 y) []) (by simp [hnot]) (by simp [padded_toList])]
    simp [htext, hlist, hone]
  case month y m hy hm =>
    have hl : ∀ leap, ∀ m ≤ 12, 1 ≤ m → 1 ≤ Day.monthLength leap m := by decide
    refine ⟨⟨y, m, 1⟩, (by omega : 0 ≤ (y : Int) ∧ (y : Int) ≤ 9999),
      ⟨hm, Nat.le_refl 1, hl _ m hm.right hm.left⟩, ?_⟩
    rw [releaseDay_of_pieces (List.cons_ne_nil (digitsIn 10 4 y) [digitsIn 10 2 m]) (by simp [hnot])
      (by simp [padded_toList, hh])]
    simp [htext, hlist, hone]
  case day y m d hy hd =>
    refine ⟨⟨y, m, d⟩, (by omega : 0 ≤ (y : Int) ∧ (y : Int) ≤ 9999), hd, ?_⟩
    rw [releaseDay_of_pieces (List.cons_ne_nil (digitsIn 10 4 y) [digitsIn 10 2 m, digitsIn 10 2 d])
      (by simp [hnot]) (by simp [padded_toList, hh])]
    simp [htext, hlist]

/-! ## Where albums come from -/

-- What the library keeps of an album.
def albumRow (b : Spotify.Album) : Album := ⟨some b.id, b.name, some (thumbnail b), some (releaseDay b.releaseDate)⟩

-- An album of a page that has been answered in the course of a run.
def Sent (es : List Exchange) (b : Spotify.Album) : Prop :=
  ∃ limit offset reply page, (Call.savedTracks limit offset, reply) ∈ called es ∧
    heard Schema.savedTracks reply = some page ∧ b ∈ page.items.map (·.track.album)

theorem Sent.append_left {es more : List Exchange} {b : Spotify.Album} (h : Sent es b) : Sent (es ++ more) b :=
  have ⟨limit, offset, reply, page, hc, h⟩ := h
  ⟨limit, offset, reply, page, by rw [called_append]; exact List.mem_append_left _ hc, h⟩

theorem Sent.append_right {es before : List Exchange} {b : Spotify.Album} (h : Sent es b) : Sent (before ++ es) b :=
  have ⟨limit, offset, reply, page, hc, h⟩ := h
  ⟨limit, offset, reply, page, by rw [called_append]; exact List.mem_append_right _ hc, h⟩

-- Albums that have been there before, or that have been sent.
def Stems (old : Album → Prop) (sent : Spotify.Album → Prop) (t : Tables) : Prop :=
  ∀ a ∈ t.albums, old a ∨ ∃ b, sent b ∧ a = albumRow b

variable {σ : Type} {S : Surroundings σ} {old : Album → Prop} {sent : Spotify.Album → Prop}
variable {s s' : σ} {es : List Exchange} {items : List SavedTrack} {workers : Int}

theorem mem_putAlbum {albums : List Spotify.Album} {a b : Spotify.Album} (h : b ∈ putAlbum albums a) :
    b ∈ albums ∨ b = a := by
  induction albums
  case nil => exact .inr (List.mem_singleton.mp h)
  case cons c rest hi =>
    rw [putAlbum] at h
    split at h <;> rcases List.mem_cons.mp h with rfl | h
    · exact .inr rfl
    · exact .inl (List.mem_cons_of_mem _ h)
    · exact .inl List.mem_cons_self
    · exact (hi h).imp (List.mem_cons_of_mem _) id

theorem mem_albumsOf {b : Spotify.Album} (h : b ∈ albumsOf items) : b ∈ items.map (·.track.album) := by
  suffices hf : ∀ albums sent : List Spotify.Album, b ∈ sent.foldl putAlbum albums → b ∈ albums ∨ b ∈ sent from
    (hf [] _ h).resolve_left List.not_mem_nil
  intro albums sent h
  induction sent generalizing albums
  case nil => exact .inl h
  case cons a rest hi =>
    rcases hi _ h with h | h
    case inr => exact .inr (List.mem_cons_of_mem _ h)
    case inl =>
      rcases mem_putAlbum h with h | rfl
      · exact .inl h
      · exact .inr List.mem_cons_self

-- Requests by which no other albums are added.
def AddsSent (sent : Spotify.Album → Prop) : Request → Prop
  | .library (.find ..) => False
  | .library (.addAlbums vs) => ∀ v ∈ vs, ∃ b, sent b ∧ v = albumValues b
  | .library _ | .call .. | .grant _ | .now | .log _ | .session | .setSession _ => True
  | _ => False

theorem AddsSent.stems {c : Library.Command} {t t' : Tables} (hc : AddsSent sent (.library c)) (e : c.Effect t t')
    (h : Stems old sent t) : Stems old sent t' := by
  cases e
  case album name v vs hv hn hi =>
    have ⟨b, hb, he⟩ := hc v hv
    subst he
    cases hn
    intro a ha
    rcases List.mem_append.mp ha with ha | ha
    case inl => exact h a ha
    case inr => exact .inr ⟨b, hb, List.mem_singleton.mp ha⟩
  all_goals exact h

def StemsFrom (old : Album → Prop) (sent : Spotify.Album → Prop) (a : Scene) : Prop :=
  Stems old sent a.library.tables ∧ Stems old sent a.library.saved

theorem AddsSent.keeps {r : Request} (hr : AddsSent sent r) (h : StemsFrom old sent (S.scene s)) :
    StemsFrom old sent (S.scene (S.answer r s).2) := by
  cases r
  case library c =>
    have hf : ∀ u f, c ≠ .find u f := by rintro u f rfl; exact hr
    rw [(Prod.mk.inj (S.library hf)).right]
    exact Store.perform_keeps (fun e => hr.stems e.effect) h.left h.right
  case call       => rw [S.call]; exact h
  case grant      => rw [S.grant]; exact h
  case now        => rw [(Prod.mk.inj S.now).right]; exact h
  case log        => rw [S.log]; exact h
  case session    => rw [(Prod.mk.inj S.session).right]; exact h
  case setSession => rw [S.setSession]; exact h
  all_goals exact hr.elim

theorem covers_addsSent : Request.Covers (AddsSent sent) := by
  constructor <;> intros <;> trivial

theorem allowsPage_addsSent (h : ∀ i ∈ items, sent i.track.album) : AllowsPage (AddsSent sent) items where
  covers           := covers_addsSent
  artists _ _      := trivial
  addAlbums v hv   := by
    have ⟨b, hb, he⟩ := List.mem_map.mp hv
    have ⟨i, hi, hb⟩ := List.mem_map.mp (mem_albumsOf hb)
    exact ⟨b, hb ▸ h i hi, he.symm⟩
  knownArtists _   := trivial
  addArtists _     := trivial
  knownTracks _ _  := trivial
  addTrack _ _     := trivial

theorem asks_savedTracks {P : Request → Prop} (ha : Request.Covers P) (hc : ∀ token c, P (.call token c))
    {offset limit : Int} : (Account.Service.savedTracks offset limit).Asks P :=
  (Account.asks_log (ha.log ..)).bind fun _ => Account.asks_call (fun token => hc token _) ha

theorem stems_turn {offset limit : Nat} {sum : Summary} {o : Except Failure (Nat × Summary)}
    (h : S.Runs (turn workers offset limit sum) s es o s') (hs : ∀ b, Sent es b → sent b)
    (hj : StemsFrom old sent (S.scene s)) : StemsFrom old sent (S.scene s') := by
  have hsaved : (Account.Service.savedTracks offset limit).Asks (AddsSent sent) :=
    asks_savedTracks covers_addsSent fun _ _ => trivial
  rcases h.bind_inv with ⟨_, _, h⟩ | ⟨page, s₁, before, rest, he, hp, h⟩
  case inl => exact h.keeps (I := fun s => StemsFrom old sent (S.scene s)) hsaved (fun hr hi => hr.keeps hi) hj
  case inr =>
    have hj₁ := hp.keeps (I := fun s => StemsFrom old sent (S.scene s)) hsaved (fun hr hi => hr.keeps hi) hj
    have hsent : ∀ i ∈ page.items, sent i.track.album := by
      intro i hi
      have ⟨_, _, reply, hp, _, hh, _⟩ := savedTracks_ok_inv hp
      have hm : (.savedTracks limit offset, reply) ∈ called es := by
        rw [he, hp]
        simp [Exchange.call?]
      exact hs _ ⟨_, _, reply, page, hm, hh, List.mem_map_of_mem hi⟩
    have ha : (addPage workers page.items { sum with pages := sum.pages + 1 }).Asks (AddsSent sent) :=
      (allowsPage_addsSent hsent).addPage
    exact h.keeps (I := fun s => StemsFrom old sent (S.scene s))
      (ha.bind fun _ => (Account.asks_log trivial).bind fun _ => .done) (fun hr hi => hr.keeps hi) hj₁

theorem stems_pullFrom {pages offset limit : Nat} {sum : Summary} {o : Except Failure Summary}
    (h : S.Runs (pullFrom workers pages offset limit sum) s es o s') (hs : ∀ b, Sent es b → sent b)
    (hj : StemsFrom old sent (S.scene s)) : StemsFrom old sent (S.scene s') := by
  induction pages generalizing offset limit sum s es
  case zero => exact h.done_inv.right.right ▸ hj
  case succ pages hi =>
    rw [pullFrom_succ] at h
    rcases h.bind_inv with ⟨_, _, h⟩ | ⟨r, s₁, before, rest, he, ht, h⟩
    case inl => exact stems_turn h hs hj
    case inr =>
      have hj₁ := stems_turn ht (fun b hb => hs b (he ▸ hb.append_left)) hj
      split at h
      case isTrue  => exact hi h (fun b hb => hs b (he ▸ hb.append_right)) hj₁
      case isFalse => exact h.done_inv.right.right ▸ hj₁

-- Albums that a pull adds are albums that it has been sent.
theorem stems_pull {pages : Nat} {o : Except Failure Summary} (h : S.Runs (pull pages workers) s es o s')
    (hj : StemsFrom old (Sent es) (S.scene s)) : StemsFrom old (Sent es) (S.scene s') := by
  rw [pull_eq] at h
  rcases h.bind_inv with ⟨_, _, h⟩ | ⟨sum, s₁, before, rest, he, hf, h⟩
  case inl => exact stems_pullFrom h (fun _ => id) hj
  case inr =>
    have hj₁ := stems_pullFrom hf (fun b hb => he ▸ hb.append_left) hj
    have ⟨_, _, _, _, hs, h⟩ := h.log_bind_inv
    rwa [h.done_inv.right.right, hs]

theorem albumRow_selectsAlike {b : Spotify.Album} (hb : IsReleaseDate b.releaseDate) {n : Nat}
    (hn : 1 ≤ n ∧ n ≤ 9999) {text text' : String} (h : SameYears n text text') :
    (albumRow b).SelectsAlike text text' :=
  have ⟨_, hy, hd, hr⟩ := releaseDay_eq hb
  have ⟨_, _, hc, hc', ha⟩ := h.agree hn
  Album.selectsAlike hc hc' ha (congrArg some hr) hy hd

-- An album that a pull has stored is one that Spotify has sent. If Spotify dates it, criteria on the year
-- of release and the corresponding criteria on the date select the same of its tracks.
theorem pull_selectsAlike {pages : Nat} {o : Except Failure Summary} (h : S.Runs (pull pages workers) s es o s')
    {a : Album} (ha : a ∈ (S.scene s').library.tables.albums) (hn : a ∉ (S.scene s).library.tables.albums)
    (hn' : a ∉ (S.scene s).library.saved.albums) :
    (∃ b, Sent es b ∧ a = albumRow b) ∧
    ∀ b, a = albumRow b → IsReleaseDate b.releaseDate → ∀ n, 1 ≤ n ∧ n ≤ 9999 →
      ∀ text text', SameYears n text text' → a.SelectsAlike text text' := by
  have hold : StemsFrom (fun a => a ∈ (S.scene s).library.tables.albums ∨ a ∈ (S.scene s).library.saved.albums)
      (Sent es) (S.scene s) :=
    ⟨fun _ h => .inl (.inl h), fun _ h => .inl (.inr h)⟩
  refine ⟨((stems_pull h hold).left a ha).resolve_left (not_or_intro hn hn'), ?_⟩
  rintro b rfl hb n hn text text' ht
  exact albumRow_selectsAlike hb hn ht

namespace Sample

def signedIn : Scene := ⟨unpulled, some ⟨1, "alice", "token", "refresh", noon⟩, []⟩

def album : Spotify.Album := ⟨"album", "Album", "2020", []⟩

end Sample

open Sample in
theorem pull_selectsAlike_2020 :
    ∃ es o s', (account [favorite "t1"] fun _ => true).Runs (pull 1 1) signedIn es o s' ∧
      albumRow album ∈ s'.library.tables.albums ∧ albumRow album ∉ signedIn.library.tables.albums ∧
      albumRow album ∉ signedIn.library.saved.albums ∧ IsReleaseDate album.releaseDate ∧
      SameYears 2020 (Criteria.yearTest .le 2020) (Criteria.releasedTest .le "2020-12-31") ∧
      (albumRow album).SelectsAlike (Criteria.yearTest .le 2020) (Criteria.releasedTest .le "2020-12-31") := by
  have h := (account [favorite "t1"] fun _ => true).runs_trace (pull 1 1) signedIn
  have hp : padded 4 2020 = "2020" := by decide
  have hd := IsReleaseDate.year (y := 2020) (by decide)
  have hy := SameYears.upTo (n := 2020)
  rw [hp] at hd hy
  have ha := pull_selectsAlike h (a := albumRow album) (by decide +kernel) (by decide +kernel) (by decide +kernel)
  exact ⟨_, _, _, h, by decide +kernel, by decide +kernel, by decide +kernel, hd, hy,
    ha.right album rfl hd 2020 (by decide) _ _ hy⟩

end Favorites

end LabelPlaylists
