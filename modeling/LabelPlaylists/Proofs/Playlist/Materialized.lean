import LabelPlaylists.Proofs.Favorites.Sample
import LabelPlaylists.Proofs.Playlist.Attempted
import LabelPlaylists.Proofs.Playlist.Orphans

namespace LabelPlaylists

open Library (Label PlaylistView Tables)
open Playlist

namespace Playlist

-- A playlist that has been worked on has been filled with the tracks of its label.
def Filled (t : Tables) (u : Int) (es : List Exchange) (v : PlaylistView) (found : Nat × Bool) : Prop :=
  ∃ l ∈ t.labels, l.userId = u ∧ Shows v l ∧ ∃ r, found = (r.1.length, r.2) ∧ Resolves t l es r ∧
    ∀ items : Contents, items.replay ((called es).map Prod.fst) v.spotifyId = r.1.map trackUri

variable {t : Tables} {u : Int} {vs rest : List PlaylistView} {v : PlaylistView} {es more : List Exchange}
variable {found : Nat × Bool} {items : Contents}

-- A playlist that is not among the given ones is left alone.
theorem FillsOnly.replay (h : FillsOnly vs es) (hv : v.spotifyId ∉ vs.map (·.spotifyId)) :
    items.replay ((called es).map Prod.fst) v.spotifyId = items v.spotifyId := by
  refine Contents.replay_of_ne fun c hc i hi he => hv ?_
  have ⟨c', hc, hk⟩ := List.mem_map.mp hc
  exact he ▸ (h c' hc i (hk ▸ hi)).left

-- What is filled stays so while others are filled.
theorem Filled.before (h : Filled t u es v found) (hm : FillsOnly vs more)
    (hv : v.spotifyId ∉ vs.map (·.spotifyId)) : Filled t u (es ++ more) v found := by
  have ⟨l, hl, hu, hs, r, he, hr, hc⟩ := h
  refine ⟨l, hl, hu, hs, r, he, hr.mono (List.subset_append_left _ _), fun items => ?_⟩
  rw [called_append, List.map_append, Contents.replay_append, hm.replay hv, hc]

-- What is filled from whatever it has held is filled after any other calls.
theorem Filled.after (h : Filled t u more v found) : Filled t u (es ++ more) v found := by
  have ⟨l, hl, hu, hs, r, he, hr, hc⟩ := h
  refine ⟨l, hl, hu, hs, r, he, hr.mono (List.subset_append_right _ _), fun items => ?_⟩
  rw [called_append, List.map_append, Contents.replay_append, hc]

-- What has been attempted has been done if no call for the items of a playlist has failed.
theorem Tried.filled {found : Except Failure (Nat × Bool)} (h : Tried t u es v found)
    (hh : ∀ c ∈ called es, c.1.IsItems → (heard .snapshot c.2).isSome) :
    ∃ a, found = .ok a ∧ Filled t u es v a := by
  have ⟨l, hl, hu, hs, r, o, hr, ha, hf⟩ := h
  have hrequests : ∀ c ∈ requests es v.spotifyId, (heard .snapshot c.2).isSome := fun c hc =>
    have ⟨hm, hc⟩ := List.mem_filter.mp hc
    hh c hm (Spotify.Call.Concerns.isItems (of_decide_eq_true hc))
  cases ha.ok_of_heard hrequests
  refine ⟨_, hf, l, hl, hu, hs, r, rfl, hr, fun items => ?_⟩
  rw [← Contents.replay_filter, List.filter_map]
  show items.replay ((requests es v.spotifyId).map Prod.fst) _ = _
  rw [ha.map_fst, Contents.replay_filling, Function.update_self]

end Playlist

namespace Surroundings

variable {σ : Type} {S : Surroundings σ} {s s' : σ} {es : List Exchange} {u : Int} {t : Tables} {workers : Int}
variable {arrange : List PlaylistView → List PlaylistView} {first : List Label → List Label}

-- All listed playlists of the user are filled.
theorem Runs.pushEachIn_completes {o : Except Failure (List (PlaylistView × Nat × Bool))} (hs : S.Obliging)
    (hf : S.Fair) (hu : Datum.IsStorable u) (hls : ∀ l ∈ t.labels, Datum.IsStorable l.id)
    (hv : ∀ v ∈ t.playlistsOf (.integer u), ∃ l ∈ t.labels, l.userId = u ∧ Shows v l)
    (hn : ((t.playlistsOf (.integer u)).map (·.spotifyId)).Nodup) (hw : 1 ≤ workers)
    (ha : ∀ ps, (arrange ps).Perm ps) (hp : Filling u t (S.scene s))
    (h : S.Runs (pushEachIn arrange workers) s es o s') :
    Filling u t (S.scene s') ∧ FillsOnly (t.playlistsOf (.integer u)) es ∧ ∃ results, o = .ok results ∧
      (results.map Prod.fst).Perm (t.playlistsOf (.integer u)) ∧ ∀ r ∈ results, Filled t u es r.1 r.2 := by
  have ⟨hp, honly, found, hperm, htried, hor⟩ := h.pushEachIn_inv hs.toRenews hf hu hls hv hn hw ha hp
  have hheard : ∀ c ∈ called es, c.1.IsItems → (heard .snapshot c.2).isSome :=
    h.forall_called (P := fun c reply => c.IsItems → (heard .snapshot reply).isSome) hs.fills
  refine ⟨hp, honly, ?_⟩
  rcases hor with ⟨results, ho, rfl⟩ | ⟨v, e, _, hm⟩
  case inl =>
    refine ⟨results, ho, ?_, fun r hm => ?_⟩
    · rwa [List.map_map] at hperm
    · have ⟨_, ho, hfilled⟩ := (htried _ (List.mem_map_of_mem hm)).filled hheard
      cases ho
      exact hfilled
  case inr =>
    have ⟨_, ho, _⟩ := (htried _ hm).filled hheard
    cases ho

end Surroundings

namespace Playlist

variable {σ : Type} {S : Surroundings σ} {u : Int} {name : String} {cs : List Creation} {l : Label}
variable {t t' : Tables} {es : List Exchange} {v : PlaylistView} {found : Nat × Bool}

theorem Ready.userIds {a : Scene} (h : Ready u name cs a) : u ∈ a.library.tables.users.map (·.id) :=
  have ⟨v, hv, he⟩ := List.mem_map.mp h.user
  List.mem_map.mpr ⟨v, hv, congrArg Prod.fst he⟩

theorem Ready.serves {s : σ} (h : Ready u name cs (S.scene s)) : S.Serves (fun _ => True) u s where
  good    := trivial
  session := have ⟨x, hx, hu, _⟩ := h.session; ⟨x, hx, hu⟩
  sound   := ⟨h.tables.sound, h.saved.sound⟩
  user    := h.userIds

-- Nothing is left to be made permanent by a push that has numbered tracks only.
theorem Ready.filling {a : Scene} (h : Ready u name cs a) (ho : a.library.Orderly)
    (hn : Datum.IsStorable a.library.tables.lastTrack) : Filling u a.library.tables a where
  session   := have ⟨x, hx, hu, _⟩ := h.session; ⟨x, hx, hu⟩
  user      := h.userIds
  sound     := h.tables.sound
  saved     := ho.resolve_right (not_not.mpr hn)
  matched   := .refl
  playlists := rfl

theorem not_refused (hs : S.Obliging) (hu : Datum.IsStorable u) : ¬Refused S u name l := by
  intro ⟨_, _, _, _, _, hp, h⟩
  have ⟨_, _, ho, _⟩ := h.call_succeeds hs.toRenews (fun _ _ _ => trivial) hu hp.serves
    fun _ _ _ => hs.creates
  cases ho

-- The playlist of a label is that of the user of the label.
theorem Recorded.label_user (h : Recorded cs t) {p : Library.Playlist} (hp : p ∈ t.playlists)
    (hl : l ∈ t.labels) (he : l.id = p.labelId) : l.userId = p.userId := by
  have ⟨c, _, hr⟩ := h.exists_creation hp
  have ⟨name, _, hm⟩ := hr.label
  have ⟨l', hl', hk⟩ := List.mem_map.mp hm
  simp only [Prod.mk.injEq] at hk
  have hll := List.inj_on_of_nodup_map h.sound.labels hl hl' (he.trans hk.left.symm)
  rw [hll, hk.right.left]

theorem Recorded.shows (h : Recorded cs t) (hv : v ∈ t.playlistsOf (.integer u)) :
    ∃ l ∈ t.labels, l.userId = u ∧ Shows v l := by
  have ⟨p, hp, hu, l, hl, he, hk⟩ := (Tables.mem_playlistsOf h.sound).mp hv
  exact ⟨l, hl, (h.label_user hp hl he).trans hu, hk ▸ ⟨rfl, rfl, rfl⟩⟩

-- Of all playlists of a user the name tells the one of a label.
theorem Recorded.view_eq (h : Recorded cs t) {p : Library.Playlist} (hp : p ∈ t.playlists) (hl : l ∈ t.labels)
    (he : l.id = p.labelId) (hv : v ∈ t.playlistsOf (.integer l.userId)) (hn : v.labelName = l.name) :
    v = ⟨p.id, p.spotifyId, l.id, l.name, l.criteria⟩ := by
  have ⟨p', hp', hu, l', hl', he', hk⟩ := (Tables.mem_playlistsOf h.sound).mp hv
  have hll : l' = l := by
    refine List.inj_on_of_nodup_map h.sound.labelNames hl' hl ?_
    rw [(h.label_user hp' hl' he').trans hu, ← hn, hk]
  subst hll
  rw [hk, List.inj_on_of_nodup_map h.sound.playlistLabels hp' hp (he'.symm.trans he)]

theorem Recorded.nodup_spotifyIds (h : Recorded cs t) (hn : (cs.map (·.id)).Nodup) :
    (t.playlists.map (·.spotifyId)).Nodup := by
  have hn : ((t.playlists.map (·.spotifyId)).map some).Nodup := by
    rw [List.map_map]
    exact h.ids ▸ hn
  exact hn.of_map some

-- The label of which the tracks are in a playlist is the one that it is listed with.
theorem Filled.of_id (hs : t.Sound) (h : Filled t u es v found) (hl : l ∈ t.labels) (hv : v.labelId = l.id) :
    ∃ r, found = (r.1.length, r.2) ∧ Resolves t l es r ∧
      ∀ items : Contents, items.replay ((called es).map Prod.fst) v.spotifyId = r.1.map trackUri := by
  have ⟨l', hl', _, hv', h⟩ := h
  rwa [List.inj_on_of_nodup_map hs.labels hl hl' (hv.symm.trans hv'.id)]

theorem Filled.of_matches (hm : t.Matches t') (h : Filled t' u es v found) : Filled t u es v found := by
  have ⟨l, hl, hu, hs, r, he, hr, hc⟩ := h
  refine ⟨l, hm.labels ▸ hl, hu, hs, r, he, ?_, hc⟩
  cases hr
  case found hr  => exact .found (hr.of_matches hm)
  case failed hr => exact .failed hr

-- What a push comes to if no call fails. The results tell for each playlist how many tracks it has got, and
-- whether the criteria of its label have failed.
structure Pushed (t t' : Tables) (u : Int) (es : List Exchange) (total : Summary) : Prop where
  matched : t.Matches t'
  covered : ∀ l ∈ t.labels, l.userId = u → l.id ∈ t'.playlists.map (·.labelId)
  only    : FillsOnly (t'.playlistsOf (.integer u)) es
  results : ∃ n results, total = summary n results ∧
    (results.map Prod.fst).Perm (t'.playlistsOf (.integer u)) ∧ ∀ r ∈ results, Filled t u es r.1 r.2

end Playlist

namespace Surroundings.Runs

variable {σ : Type} {S : Surroundings σ} {s s' : σ} {es : List Exchange} {u : Int} {name : String}
variable {cs : List Creation} {workers : Int} {first : List Label → List Label}
variable {arrange : List PlaylistView → List PlaylistView}

-- All labels get a playlist.
theorem provideIn_completes {o : Except Failure Nat} (hs : S.Obliging) (hp : Ready u name cs (S.scene s))
    (hfits : (S.scene s).library.tables.Fits) (hw : 1 ≤ workers) (hfirst : ∀ ls, (first ls).Perm ls)
    (hi : Identified (creations (called es))) (h : S.Runs (provideIn first workers) s es o s') :
    (∃ n, o = .ok n) ∧ ∃ labels, labels.Perm ((S.scene s).library.tables.labelsWithoutPlaylist (.integer u)) ∧
      Provided u name cs labels (S.scene s) (called es) (S.scene s') ∧
      Complete name labels (S.scene s) (called es) (S.scene s') := by
  have hu := hfits.user hp.tables.sound hp.serves.user
  have hls := fun l => hfits.label hp.tables.sound (l := l)
  have ⟨labels, hperm, hprovided, hor⟩ := h.provideIn_inv hfirst hp hls hi
  rcases hor with ⟨hok, hcomplete⟩ | ⟨_, hfew | hlarge | ⟨l, hrefused⟩⟩
  · exact ⟨hok, labels, hperm, hprovided, hcomplete⟩
  · omega
  · exact absurd hu hlarge
  · exact absurd hrefused (not_refused hs hu)

theorem pushIn_completes {o : Except Failure Summary} (hs : S.Obliging) (hf : S.Fair)
    (hp : Ready u name cs (S.scene s)) (hfits : (S.scene s).library.tables.Fits)
    (hsv : (S.scene s).library.Orderly) (hw : 1 ≤ workers) (hfirst : ∀ ls, (first ls).Perm ls)
    (ha : ∀ ps, (arrange ps).Perm ps) (hi : Identified (creations (called es)))
    (hn : ((cs ++ creations (called es)).map (·.id)).Nodup)
    (h : S.Runs (pushIn first arrange workers) s es o s') :
    ∃ total, o = .ok total ∧
      Pushed (S.scene s).library.tables (S.scene s').library.tables u es total := by
  have hu := hfits.user hp.tables.sound hp.serves.user
  have hls := fun l => hfits.label hp.tables.sound (l := l)
  rcases h.bind_inv with ⟨_, _, h₁⟩ | ⟨n, s₁, before, rest, he, h₁, h⟩
  case inl =>
    have ⟨⟨_, ho⟩, _⟩ := h₁.provideIn_completes hs hp hfits hw hfirst hi
    cases ho
  case inr =>
    rw [he, called_append, creations_append] at hi hn
    have ⟨_, labels, hperm, hprovided, hcomplete⟩ :=
      h₁.provideIn_completes hs hp hfits hw hfirst (identified_append.mp hi).left
    have hm := hprovided.matched
    have hrec := hprovided.ready.tables
    have hids : ((S.scene s₁).library.tables.playlists.map (·.spotifyId)).Nodup := by
      rw [← List.append_assoc, List.map_append] at hn
      exact hrec.nodup_spotifyIds hn.of_append_left
    have horderly := h₁.keeps (I := fun s => (S.scene s).library.Orderly)
      (asks_provideIn.mono fun _ h => h.imp id .inl) (fun hq h => hf.orderly hq h) hsv
    have hlast : (S.scene s₁).library.tables.lastTrack = (S.scene s).library.tables.lastTrack :=
      (congrArg Tables.lastTrack hm.others :)
    have hfilling := hprovided.ready.filling horderly (hlast ▸ hfits.tracks)
    rcases h.bind_inv with ⟨_, _, h₂⟩ | ⟨results, s₂, before', rest', he', h₂, h⟩ <;>
      have ⟨hp₂, honly, _, ho₂, hperm₂, hfilled⟩ := h₂.pushEachIn_completes hs hf hu
        (fun l hl => hls l (hm.labels ▸ hl)) (fun _ => hrec.shows) (Tables.nodup_playlistsOf hids) hw ha hfilling <;>
      cases ho₂
    have ⟨_, _, s₃, he₃, hs₃, h⟩ := h.log_bind_inv
    have ⟨hn₃, ho, hs'⟩ := h.done_inv
    have hk : (S.scene s₂).library.tables.playlistsOf (.integer u)
        = (S.scene s₁).library.tables.playlistsOf (.integer u) := hp₂.matched.playlistsOf hp₂.playlists
    have hpost : FillsOnly [] rest' := by
      refine .of_called ?_
      rw [he₃, hn₃]
      rfl
    rw [hs', hs₃, he, he']
    refine ⟨_, ho, hm.trans hp₂.matched, fun l hl hlu => ?_, ?_, n, results, rfl, hk ▸ hperm₂, fun r hr => ?_⟩
    case refine_1 =>
      rw [hp₂.playlists, hcomplete.rows, List.mem_append]
      refine or_iff_not_imp_left.mpr fun hn => List.mem_map_of_mem (hperm.mem_iff.mpr ?_)
      exact Tables.mem_labelsWithoutPlaylist.mpr ⟨hl, hlu, hn⟩
    case refine_2 =>
      have hpre : FillsOnly ((S.scene s₂).library.tables.playlistsOf (.integer u)) before := by
        intro c hc i hi
        have ⟨l, _, hl⟩ := hprovided.calls c hc
        rw [hl] at hi
        cases hi
      exact hpre.append ((hk ▸ honly).append (hpost.mono (List.nil_subset _)))
    case refine_3 => exact (((hfilled r hr).before hpost List.not_mem_nil).after).of_matches hm

end Surroundings.Runs

namespace Playlist

variable {n : Nat} {results : List (PlaylistView × Nat × Bool)} {name : String}

-- The failures of a summary are the labels of the playlists whose criteria have failed.
theorem mem_failures :
    name ∈ (summary n results).failures ↔ ∃ r ∈ results, r.2.2 = true ∧ r.1.labelName = name := by
  simp [summary, Library.sorted, List.mem_mergeSort, List.mem_filterMap]

end Playlist

variable {σ : Type} {S : Surroundings σ} {x : Session} {past : List (List Exchange)} {s s' : σ}
variable {es : List Exchange} {workers : Int} {first : List Label → List Label}
variable {arrange : List PlaylistView → List PlaylistView}

-- After any history, if no call fails and every created playlist has got an id of its own, a push comes to
-- its end, and by then
-- 1. each label of the user has exactly one playlist
-- 2. whatever has been in that playlist, it holds the tracks of the label, from the newest favorite on, or
--    nothing if the label is reported for its criteria having failed
-- 3. items have been sent fifty at most, never none, and only to playlists of labels of the user
theorem History.push_materializes (h : History past (S.scene s).library) (hf : S.Fair) (hs : S.Obliging)
    (hx : (S.scene s).session = some x) (ha : (S.scene s).IsSigned)
    (hfits : (S.scene s).library.tables.Fits) (hw : 1 ≤ workers) (hfirst : ∀ ls, (first ls).Perm ls)
    (harrange : ∀ ps, (arrange ps).Perm ps) {o : Except Failure Summary}
    (hr : S.Runs (pushIn first arrange workers) s es o s')
    (hi : Identified (creations (called (past.flatten ++ es))))
    (hn : ((creations (called (past.flatten ++ es))).map (·.id)).Nodup) :
    ∃ total, o = .ok total ∧
      (∀ l ∈ (S.scene s).library.tables.labels, l.userId = x.userId →
        ((S.scene s').library.tables.playlists.map (·.labelId)).count l.id = 1 ∧
        ∀ p ∈ (S.scene s').library.tables.playlists, p.labelId = l.id → ∀ items : Contents,
          (l.name ∈ total.failures ∧ Fails l es ∧
            items.replay ((called es).map Prod.fst) p.spotifyId = []) ∨
          (l.name ∉ total.failures ∧ ∃ rows, (S.scene s).library.tables.Lists l rows ∧
            items.replay ((called es).map Prod.fst) p.spotifyId = rows.map fun r => trackUri r.spotifyId)) ∧
      (∀ c ∈ called es, ∀ i ∈ c.1.items?, 1 ≤ i.2.length ∧ i.2.length ≤ 50 ∧
        ∃ p ∈ (S.scene s').library.tables.playlists, p.spotifyId = i.1 ∧
          ∃ l ∈ (S.scene s).library.tables.labels, l.id = p.labelId ∧ l.userId = x.userId) := by
  rw [called_append, creations_append] at hi hn
  have ⟨hpast, hes⟩ := identified_append.mp hi
  have hp := ha.ready hx (h.recorded hpast)
  have hrec := (hr.pushIn_inv hf hfirst hp hfits hes).recorded.left
  have ⟨total, ho, hdone⟩ := hr.pushIn_completes hs hf hp hfits h.orderly hw hfirst harrange hes hn
  have ⟨n, results, ht, hperm, hfilled⟩ := hdone.results
  have hlabels := hdone.matched.labels
  refine ⟨total, ho, fun l hl hlu => ⟨?_, fun p hpl hpid items => ?_⟩, fun c hc i hi => ?_⟩
  case refine_1 => exact List.count_eq_one_of_mem hrec.sound.playlistLabels (hdone.covered l hl hlu)
  case refine_2 =>
    have hv : ⟨p.id, p.spotifyId, l.id, l.name, l.criteria⟩
        ∈ (S.scene s').library.tables.playlistsOf (.integer x.userId) := by
      have hlt := hlabels ▸ hl
      exact (Tables.mem_playlistsOf hrec.sound).mpr
        ⟨p, hpl, (hrec.label_user hpl hlt hpid.symm).symm.trans hlu, l, hlt, hpid.symm, rfl⟩
    rw [ht, mem_failures]
    by_cases hfail : ∃ r ∈ results, r.2.2 = true ∧ r.1.labelName = l.name
    case pos =>
      have ⟨r, hm, hfailed, hname⟩ := hfail
      have he := hrec.view_eq hpl (hlabels ▸ hl) hpid.symm
        (hlu ▸ hperm.subset (List.mem_map_of_mem hm)) hname
      have ⟨_, hk, hres, hc⟩ := (hfilled r hm).of_id hp.tables.sound hl (by rw [he])
      rw [he] at hc
      rw [hk] at hfailed
      cases hres
      case found       => cases hfailed
      case failed hres => exact .inl ⟨hfail, hres, hc items⟩
    case neg =>
      have ⟨r, hm, he⟩ := List.mem_map.mp (hperm.mem_iff.mpr hv)
      have ⟨_, hk, hres, hc⟩ := (hfilled r hm).of_id hp.tables.sound hl (by rw [he])
      rw [he] at hc
      cases hres
      case found rows hrows => exact .inr ⟨hfail, rows, hrows, (hc items).trans List.map_map⟩
      case failed           => exact absurd ⟨r, hm, by rw [hk], by rw [he]⟩ hfail
  case refine_3 =>
    have ⟨hm, hlow, hhigh⟩ := hdone.only c hc i hi
    have ⟨v, hv, hvi⟩ := List.mem_map.mp hm
    have ⟨p, hpl, hpu, l, hl, hlp, hk⟩ := (Tables.mem_playlistsOf hrec.sound).mp hv
    refine ⟨hlow, hhigh, p, hpl, by rw [← hvi, hk], l, hlabels ▸ hl, hlp, ?_⟩
    exact (hrec.label_user hpl hl hlp).trans hpu

namespace Playlist.Sample

-- A service that does all that it is asked for, and numbers the playlists that it creates.
def answer : (r : Request) → Scene → r.Reply × Scene
  | .call _ (.createPlaylist user name isPublic description), a =>
    let body := Spotify.CreatedPlaylist.body ⟨"created" ++ toString a.calls.length⟩
    (.ok body, { a with calls := a.calls ++ [.createPlaylist user name isPublic description] })
  | .call _ c, a => (.ok (Spotify.Snapshot.body ⟨"snapshot"⟩), { a with calls := a.calls ++ [c] })
  | r, a => Favorites.Sample.answer [] (fun _ => false) r a

def service : Surroundings Scene where
  answer     := answer
  scene      := id
  clock      := fun _ => Favorites.Sample.noon
  library    := fun _ => rfl
  call       := by
    intro _ c _
    cases c <;> rfl
  grant      := rfl
  now        := rfl
  log        := rfl
  session    := rfl
  setSession := rfl

theorem service_fair : service.Fair where
  find     := .inl rfl
  print    := rfl
  complain := rfl
  prompt   := rfl
  secret   := rfl

theorem service_obliging : service.Obliging where
  toRenews :=
    have hr : (Favorites.Sample.account [] fun _ => false).Renews fun _ => True := Favorites.Sample.renews
    ⟨@hr.clock, @hr.grant, @hr.expiry⟩
  creates  := rfl
  fills    := by
    intro _ c _ hc
    cases c <;> first | exact hc.elim | rfl

-- Said of any scene, as concrete ones are not to be evaluated for it.

theorem scene_service (a : Scene) : service.scene a = a := rfl

theorem library_service (l : Library.Store) (x : Option Session) (calls : List Spotify.Call) :
    (service.scene ⟨l, x, calls⟩).library = l := rfl

-- The second label is still without a playlist.
def scene : Scene := ⟨answering.library, some session, []⟩

theorem history_scene : History before (service.scene scene).library := by
  rw [scene, library_service]
  exact history_answering

theorem scene_kept : scene = ⟨kept, some session, []⟩ := by
  rw [scene, library_kept]

theorem scene_stands : Stands scene := by
  rw [scene_kept]
  decide

theorem labels_scene : scene.library.tables.labels = [good, bad] := by
  rw [scene_kept]
  rfl

def total : Summary := ⟨1, 2, 1, ["Bad"]⟩

theorem trace_push :
    (service.trace (push 2) scene).2.1.toOption = some total ∧
    creations (called (service.trace (push 2) scene).1) = [⟨"alice", nameOf "Bad", some "created0"⟩] ∧
    (service.trace (push 2) scene).2.2.library.tables.playlists
      = [⟨1, 1, 1, "playlist1"⟩, ⟨2, 1, 2, "created0"⟩] := by
  rw [scene_kept]
  decide +kernel

end Playlist.Sample

open Playlist.Sample in
-- The favorite that stands in empty playlists for a moment is among the tracks of a static label, and the
-- criteria of the other label do not compile.
theorem History.push_materializes_placeholder :
    ∃ es s', service.Runs (Playlist.push 2) scene es (.ok total) s' ∧
      (∀ l ∈ scene.library.tables.labels, (s'.library.tables.playlists.map (·.labelId)).count l.id = 1) ∧
      (∀ items : Contents, ∃ rows, scene.library.tables.Lists good rows ∧
        items.replay ((called es).map Prod.fst) "playlist1" = rows.map fun r => trackUri r.spotifyId) ∧
      ∀ items : Contents, items.replay ((called es).map Prod.fst) "created0" = [] := by
  have hr := service.runs_trace (Playlist.push 2) scene
  have ⟨ho, hes, hps⟩ := trace_push
  have hall : creations (called (before.flatten ++ (service.trace (Playlist.push 2) scene).1))
      = [⟨"alice", nameOf "Good", some "playlist1"⟩, ⟨"alice", nameOf "Bad", some "created0"⟩] := by
    rw [called_append, creations_append, creations_before, hes]
    rfl
  have ⟨total', ho', hl, _⟩ := History.push_materializes (S := service) (s := scene) history_scene
    service_fair service_obliging rfl scene_stands.isSigned scene_stands.fits (by decide) (fun _ => .refl _)
    (fun _ => .refl _) hr (by rw [hall]; unfold Identified; decide) (by rw [hall]; decide)
  rw [ho'] at ho hr
  rw [scene_service, scene_service] at hl
  obtain rfl : total' = total := Option.some.inj ho
  have hgood : good ∈ scene.library.tables.labels := by
    rw [labels_scene]
    exact List.mem_cons_self
  have hbad : bad ∈ scene.library.tables.labels := by
    rw [labels_scene]
    exact List.mem_cons_of_mem _ (List.mem_singleton_self _)
  refine ⟨_, _, hr, fun l hm => (hl l hm ?_).left, fun items => ?_, fun items => ?_⟩
  case refine_1 =>
    rw [labels_scene] at hm
    revert l
    decide
  case refine_2 =>
    have hp := (hl good hgood rfl).right ⟨1, 1, 1, "playlist1"⟩ (by rw [hps]; decide) rfl items
    rcases hp with ⟨hn, _⟩ | ⟨_, h⟩
    · exact absurd hn (by decide)
    · exact h
  case refine_3 =>
    have hp := (hl bad hbad rfl).right ⟨2, 1, 2, "created0"⟩ (by rw [hps]; decide) rfl items
    rcases hp with ⟨_, _, h⟩ | ⟨hn, _⟩
    · exact h
    · exact absurd (by decide) hn

end LabelPlaylists
