import LabelPlaylists.Proofs.CommandLine.Isolation
import LabelPlaylists.Proofs.Playlist.Materialized

namespace LabelPlaylists

open Library (Label PlaylistView Tables)
open Playlist

namespace Playlist

-- The tracks that are due in a playlist: those of its label, or none if its criteria fail.
def Due (t : Tables) (u : Int) (es : List Exchange) (v : PlaylistView) (tracks : List String) : Prop :=
  ∃ l ∈ t.labels, l.userId = u ∧ Shows v l ∧ ∃ flag, Resolves t l es (tracks, flag)

-- What a push comes to if nothing fails but requests for the items of playlists, and what is then in the playlists
-- of the user, which have held the given items before.
structure Confined (t : Tables) (u : Int) (items : Contents) (es : List Exchange) (o : Except Failure Summary) :
    Prop where
  -- The push fails if a playlist cannot be filled, and only then.
  fails   : (∃ e, o = .error e) ↔ ∃ v ∈ t.playlistsOf (.integer u), failed (requests es v.spotifyId) ≠ []
  -- The failure that is reported is that of one of these playlists.
  raised  : ∀ e, o = .error e → ∃ v ∈ t.playlistsOf (.integer u), ∃ c reply,
    failed (requests es v.spotifyId) = [(c, reply)] ∧ told .snapshot reply = .error e
  -- All others hold the tracks of their labels.
  filled  : ∀ v ∈ t.playlistsOf (.integer u), failed (requests es v.spotifyId) = [] →
    ∃ tracks, Due t u es v tracks ∧ items.replay (answered (called es)) v.spotifyId = tracks.map trackUri
  -- A playlist that cannot be filled stands where the request that has failed has left it.
  halfway : ∀ v ∈ t.playlistsOf (.integer u), failed (requests es v.spotifyId) ≠ [] →
    ∃ tracks c reply, Due t u es v tracks ∧ failed (requests es v.spotifyId) = [(c, reply)] ∧
      Halfway tracks (items v.spotifyId) (items.replay (answered (called es)) v.spotifyId) c

variable {t : Tables} {u : Int} {es : List Exchange} {v : PlaylistView}

theorem Tried.ok_inv {a : Nat × Bool} (h : Tried t u es v (.ok a)) (items : Contents) :
    failed (requests es v.spotifyId) = [] ∧
      ∃ tracks, Due t u es v tracks ∧ items.replay (answered (called es)) v.spotifyId = tracks.map trackUri := by
  have ⟨l, hl, hu, hs, r, o, hr, ha, hf⟩ := h
  cases o <;> cases hf
  have ⟨hc, hn⟩ := ha.ok_inv
  refine ⟨hn, r.1, ⟨l, hl, hu, hs, r.2, hr⟩, ?_⟩
  rw [← Contents.replay_requests, hc, Contents.replay_filling, Function.update_self]

theorem Tried.error_inv {e : Failure} (h : Tried t u es v (.error e)) (items : Contents) :
    ∃ tracks c reply, Due t u es v tracks ∧ failed (requests es v.spotifyId) = [(c, reply)] ∧
      Halfway tracks (items v.spotifyId) (items.replay (answered (called es)) v.spotifyId) c ∧
      told .snapshot reply = .error e := by
  have ⟨l, hl, hu, hs, r, o, hr, ha, hf⟩ := h
  cases o <;> cases hf
  have ⟨c, _, reply, hc, hfailed, ht⟩ := ha.error_inv
  refine ⟨r.1, c, reply, ⟨l, hl, hu, hs, r.2, hr⟩, hfailed, ?_, ht⟩
  rw [← Contents.replay_requests]
  exact halfway_filling hc

-- The playlists have been worked on in some order, and the push has come to its end or fails with one of them.
theorem Confined.of_found {items : Contents} {found : List (PlaylistView × Except Failure (Nat × Bool))}
    {o : Except Failure Summary} (hp : (found.map Prod.fst).Perm (t.playlistsOf (.integer u)))
    (ht : ∀ r ∈ found, Tried t u es r.1 r.2)
    (ho : (∃ total, o = .ok total) ∧ (∀ r ∈ found, ∃ a, r.2 = .ok a) ∨
      ∃ v e, o = .error e ∧ (v, .error e) ∈ found) : Confined t u items es o := by
  have hfound {v} (hv : v ∈ t.playlistsOf (.integer u)) : ∃ a, (v, a) ∈ found := by
    have ⟨r, hr, he⟩ := List.mem_map.mp (hp.mem_iff.mpr hv)
    exact ⟨r.2, he ▸ hr⟩
  have hraised : ∀ e, o = .error e → ∃ v ∈ t.playlistsOf (.integer u), ∃ c reply,
      failed (requests es v.spotifyId) = [(c, reply)] ∧ told .snapshot reply = .error e := by
    intro e he
    rcases ho with ⟨⟨_, ho⟩, _⟩ | ⟨v, e', ho, hm⟩ <;> cases he.symm.trans ho
    have ⟨_, c, reply, _, hf, _, htold⟩ := (ht _ hm).error_inv items
    exact ⟨v, hp.subset (List.mem_map_of_mem hm), c, reply, hf, htold⟩
  refine ⟨⟨fun ⟨e, he⟩ => ?_, fun ⟨v, hv, hf⟩ => ?_⟩, hraised, fun v hv hf => ?_, fun v hv hf => ?_⟩
  case refine_1 =>
    have ⟨v, hv, _, _, hf, _⟩ := hraised e he
    exact ⟨v, hv, by rw [hf]; exact List.cons_ne_nil _ _⟩
  all_goals
    have ⟨a, hm⟩ := hfound hv
    have hv := ht _ hm
    cases a
  case refine_2.ok     => exact absurd (hv.ok_inv items).left hf
  case refine_2.error  =>
    rcases ho with ⟨_, hok⟩ | ⟨_, e, ho, _⟩
    case inl => cases (hok _ hm).choose_spec
    case inr => exact ⟨e, ho⟩
  case refine_3.ok     => exact (hv.ok_inv items).right
  case refine_3.error  =>
    have ⟨_, _, _, _, hn, _⟩ := hv.error_inv items
    cases hf.symm.trans hn
  case refine_4.ok     => exact absurd (hv.ok_inv items).left hf
  case refine_4.error  =>
    have ⟨tracks, c, reply, hdue, hf, hh, _⟩ := hv.error_inv items
    exact ⟨tracks, c, reply, hdue, hf, hh⟩

end Playlist

namespace Surroundings.Runs

variable {σ : Type} {S : Surroundings σ} {s s' : σ} {es : List Exchange} {u : Int} {t : Tables} {workers : Int}
variable {first : List Label → List Label} {arrange : List PlaylistView → List PlaylistView} {o : Except Failure Nat}

-- Nothing is asked of Spotify if all labels have playlists.
theorem provideIn_nothing (hu : Datum.IsStorable u) (hp : Filling u t (S.scene s))
    (hn : t.labelsWithoutPlaylist (.integer u) = []) (h : S.Runs (provideIn first workers) s es o s') :
    o = .ok 0 ∧ called es = [] ∧ S.scene s' = S.scene s := by
  have ⟨x, hx, hxu⟩ := hp.session
  have ⟨_, s₁, he, hs, h⟩ := h.session_bind_inv hx
  rw [hxu] at h
  rcases (S.scene s₁).library.perform_asking (c := .labelsWithoutPlaylist (.integer u)) rfl with ⟨_, hq⟩ | ⟨hnu, _⟩
  case inr => exact absurd hu hnu
  rcases h.bind_inv with ⟨_, _, h₂⟩ | ⟨_, s₂, _, _, he', h₂, h⟩ <;>
    have ⟨he₂, ho₂, hs₂⟩ := h₂.library_inv (by nofun) <;> rw [hq] at ho₂ hs₂ <;> cases ho₂
  rw [hs, hp.matched.labelsWithoutPlaylist hp.playlists, hn] at h
  have ⟨he₃, ho, hs₃⟩ := h.done_inv
  exact ⟨ho, by rw [he, he', he₂, he₃]; rfl, by rw [hs₃, hs₂, hs]⟩

-- A push of playlists that are all there.
theorem pushIn_confined {o : Except Failure Summary} (hs : S.Renews fun _ => True) (hf : S.Fair)
    (hu : Datum.IsStorable u) (hls : ∀ l ∈ t.labels, Datum.IsStorable l.id)
    (hv : ∀ v ∈ t.playlistsOf (.integer u), ∃ l ∈ t.labels, l.userId = u ∧ Shows v l)
    (hids : ((t.playlistsOf (.integer u)).map (·.spotifyId)).Nodup)
    (hn : t.labelsWithoutPlaylist (.integer u) = []) (hw : 1 ≤ workers) (ha : ∀ ps, (arrange ps).Perm ps)
    (hp : Filling u t (S.scene s)) (h : S.Runs (pushIn first arrange workers) s es o s') (items : Contents) :
    Filling u t (S.scene s') ∧ Confined t u items es o := by
  rcases h.bind_inv with ⟨_, _, h₁⟩ | ⟨n, s₁, before, rest, he, h₁, h⟩ <;>
    have ⟨ho₁, hc₁, hs₁⟩ := h₁.provideIn_nothing hu hp hn <;> cases ho₁
  rw [← hs₁] at hp
  have hpre : FillsOnly [] before := .of_called hc₁
  rcases h.bind_inv with ⟨e, ho, h₂⟩ | ⟨results, s₂, before', rest', he', h₂, h⟩ <;>
    have ⟨hp, _, found, hperm, htried, hor⟩ := h₂.pushEachIn_inv hs hf hu hls hv hids hw ha hp
  case inl =>
    refine ⟨hp, .of_found hperm (fun r hr => he ▸ (htried r hr).after hpre List.not_mem_nil) (.inr ?_)⟩
    rcases hor with ⟨_, hok, _⟩ | ⟨v, e', he', hm⟩
    case inl => cases hok
    case inr => cases he'; exact ⟨v, e, ho, hm⟩
  case inr =>
    have ⟨_, _, s₃, he₃, hs₃, h⟩ := h.log_bind_inv
    have ⟨hn₃, ho, hs'⟩ := h.done_inv
    have hpost : FillsOnly [] rest' := .of_called (by rw [he₃, hn₃]; rfl)
    rw [hs', hs₃]
    refine ⟨hp, .of_found hperm (fun r hr => ?_) (.inl ⟨⟨_, ho⟩, ?_⟩)⟩
    case refine_1 =>
      rw [he, he']
      exact ((htried r hr).before hpost List.not_mem_nil).after hpre List.not_mem_nil
    case refine_2 =>
      rcases hor with ⟨_, _, rfl⟩ | ⟨_, _, hok, _⟩
      case inl => exact List.forall_mem_map.mpr fun r _ => ⟨r.2, rfl⟩
      case inr => cases hok

end Surroundings.Runs

namespace Playlist

-- A push of a library by one of its users, with the calls of Spotify that it makes, what it comes to and the library
-- that it leaves. Tokens can be renewed. Playlists are worked on in any order, and the library may have been opened
-- again before.
inductive PushOf (u : Int) (l : Library.Store) : List Exchange → Except Failure Summary → Library.Store → Prop
  | intro {σ : Type} {S : Surroundings σ} {s s' es o x first arrange workers} :
    S.Fair → S.Renews (fun _ => True) → (S.scene s).session = some x → x.userId = u →
    ((S.scene s).library = l ∨ (S.scene s).library = l.reconnect) → 1 ≤ workers → (∀ ps, (arrange ps).Perm ps) →
    S.Runs (pushIn first arrange workers) s es o s' → PushOf u l es o (S.scene s').library

variable {t : Tables} {u : Int} {es : List Exchange} {o : Except Failure Summary} {l l' : Library.Store}

-- Whoever is in session for a user of the library can fill the playlists of that user.
def Fillable (u : Int) (t : Tables) (l : Library.Store) : Prop :=
  ∀ a : Scene, (∃ x, a.session = some x ∧ x.userId = u) → a.library = l ∨ a.library = l.reconnect → Filling u t a

theorem Filling.fillable {a : Scene} (h : Filling u t a) : Fillable u t a.library := by
  rintro b hx (hl | hl)
  case inl => exact ⟨hx, hl ▸ h.user, hl ▸ h.sound, hl ▸ h.saved, hl ▸ h.matched, hl ▸ h.playlists⟩
  case inr =>
    -- What has been read again is what has been saved.
    have ht : b.library.tables = a.library.tables := by rw [hl]; exact h.saved
    have hs : b.library.saved = b.library.tables := by rw [hl]; rfl
    exact ⟨hx, ht ▸ h.user, ht ▸ h.sound, hs, ht ▸ h.matched, ht ▸ h.playlists⟩

theorem Fillable.confined (h : Fillable u t l) (hu : Datum.IsStorable u)
    (hls : ∀ b ∈ t.labels, Datum.IsStorable b.id)
    (hv : ∀ v ∈ t.playlistsOf (.integer u), ∃ b ∈ t.labels, b.userId = u ∧ Shows v b)
    (hids : ((t.playlistsOf (.integer u)).map (·.spotifyId)).Nodup)
    (hn : t.labelsWithoutPlaylist (.integer u) = []) (hp : PushOf u l es o l') (items : Contents) :
    Fillable u t l' ∧ Confined t u items es o := by
  cases hp
  case intro hf hs hx hxu hl hw ha hr =>
    have ⟨hfill, hc⟩ := hr.pushIn_confined hs hf hu hls hv hids hn hw ha (h _ ⟨_, hx, hxu⟩ hl) items
    exact ⟨hfill.fillable, hc⟩

-- A library in which all labels of a user have playlists of their own, with nothing left to be made permanent.
structure Equipped (u : Int) (l : Library.Store) : Prop where
  user   : u ∈ l.tables.users.map (·.id)
  sound  : l.tables.Sound
  saved  : l.saved = l.tables
  fits   : l.tables.Fits
  -- A playlist belongs to whom its label belongs.
  owners : ∀ p ∈ l.tables.playlists, ∀ b ∈ l.tables.labels, b.id = p.labelId → b.userId = p.userId
  all    : ∀ b ∈ l.tables.labels, b.userId = u → b.id ∈ l.tables.playlists.map (·.labelId)
  ids    : ((l.tables.playlistsOf (.integer u)).map (·.spotifyId)).Nodup

theorem Equipped.of_reached (h : CommandLine.Reached l) (hu : u ∈ l.tables.users.map (·.id)) (hf : l.tables.Fits)
    (ha : ∀ b ∈ l.tables.labels, b.userId = u → b.id ∈ l.tables.playlists.map (·.labelId))
    (hi : ((l.tables.playlistsOf (.integer u)).map (·.spotifyId)).Nodup) : Equipped u l where
  user   := hu
  sound  := h.owned.left.left
  saved  := h.orderly.resolve_right (not_not_intro hf.tracks)
  fits   := hf
  owners := h.owned.left.right.playlists
  all    := ha
  ids    := hi

namespace Equipped

theorem fillable (h : Equipped u l) : Fillable u l.tables l := by
  intro a hx hl
  have hfill : Filling u l.tables { a with library := l } := ⟨hx, h.user, h.sound, h.saved, .refl, rfl⟩
  exact hfill.fillable a hx hl

theorem shows (h : Equipped u l) :
    ∀ v ∈ l.tables.playlistsOf (.integer u), ∃ b ∈ l.tables.labels, b.userId = u ∧ Shows v b := by
  intro v hv
  have ⟨p, hp, hpu, b, hb, he, hk⟩ := (Tables.mem_playlistsOf h.sound).mp hv
  exact ⟨b, hb, (h.owners p hp b hb he).trans hpu, hk ▸ ⟨rfl, rfl, rfl⟩⟩

theorem labelsWithoutPlaylist (h : Equipped u l) : l.tables.labelsWithoutPlaylist (.integer u) = [] := by
  refine List.eq_nil_iff_forall_not_mem.mpr fun b hb => ?_
  have ⟨hb, hbu, hn⟩ := Tables.mem_labelsWithoutPlaylist.mp hb
  exact hn (h.all b hb hbu)

-- One playlist that cannot be filled does not spoil the others. Whichever requests for the items of playlists fail
-- in a push, it is confined to those playlists, and a later push in which none fails leaves all playlists with the
-- tracks of their labels.
theorem push_confined (h : Equipped u l) (hp : PushOf u l es o l') (items : Contents) :
    Confined l.tables u items es o ∧
      ∀ es' o' l'', PushOf u l' es' o' l'' →
        (∀ v ∈ l.tables.playlistsOf (.integer u), failed (requests es' v.spotifyId) = []) →
        (∃ total, o' = .ok total) ∧
          ∀ v ∈ l.tables.playlistsOf (.integer u), ∃ tracks, Due l.tables u es' v tracks ∧
            items.replay (answered (called es ++ called es')) v.spotifyId = tracks.map trackUri := by
  have hconfined {l l' es o} (hl : Fillable u _ l) (hp : PushOf u l es o l') :=
    hl.confined (h.fits.user h.sound h.user) (fun _ => h.fits.label h.sound) h.shows h.ids h.labelsWithoutPlaylist hp
  have ⟨hl', hc⟩ := hconfined h.fillable hp items
  refine ⟨hc, fun es' o' l'' hp' hf => ?_⟩
  have ⟨_, hc'⟩ := hconfined hl' hp' (items.replay (answered (called es)))
  refine ⟨?_, fun v hv => ?_⟩
  case refine_1 =>
    cases o'
    case ok total => exact ⟨total, rfl⟩
    case error e  =>
      have ⟨v, hv, hne⟩ := hc'.fails.mp ⟨e, rfl⟩
      exact absurd (hf v hv) hne
  case refine_2 =>
    rw [answered_append, Contents.replay_append]
    exact hc'.filled v hv (hf v hv)

end Equipped

end Playlist

namespace Playlist.Sample

-- A service that does all that it is asked for but take items away.
def keepingAnswer : (r : Request) → Scene → r.Reply × Scene
  | .call _ (.removeItems playlist uris), a =>
    (.error (.unreachable "timed out"), { a with calls := a.calls ++ [.removeItems playlist uris] })
  | r, a => answer r a

def keeping : Surroundings Scene where
  answer     := keepingAnswer
  scene      := id
  clock      := fun _ => Favorites.Sample.noon
  library    := fun _ => rfl
  call       := by
    intro _ c _
    cases c <;> rfl
  grant      := rfl
  now        := rfl
  log        := rfl
  session    := rfl
  setSession := rfl

theorem keeping_fair : keeping.Fair where
  find     := .inl rfl
  print    := rfl
  complain := rfl
  prompt   := rfl
  secret   := rfl

theorem keeping_renews : keeping.Renews fun _ => True :=
  have hr : (Favorites.Sample.account [] fun _ => false).Renews fun _ => True := Favorites.Sample.renews
  ⟨@hr.clock, @hr.grant, @hr.expiry⟩

-- Both labels get playlists.
@[irreducible]
def pushed : List Exchange × Except Failure Summary × Scene := service.trace (push 2) scene

theorem reached_pushed : CommandLine.Reached pushed.2.2.library := by
  have h := (History.reached_by_commands history_scene).command (S := service) (s := scene) service_fair
    (.push (fun _ => .refl _) fun _ => .refl _) (service.runs_trace (push 2) scene)
  rw [scene_service] at h
  unfold pushed
  exact h

def goodView : PlaylistView := ⟨1, "playlist1", 1, "Good", none⟩

def badView : PlaylistView := ⟨2, "created0", 2, "Bad", some "year >"⟩

theorem stands_pushed : Stands ⟨pushed.2.2.library, some session, []⟩ ∧
    pushed.2.2.library.tables.labels = [good, bad] ∧
    pushed.2.2.library.tables.playlists.map (·.labelId) = [1, 2] ∧
    pushed.2.2.library.tables.playlistsOf (.integer 1) = [goodView, badView] := by
  unfold pushed
  rw [scene_kept]
  decide +kernel

theorem playlistsOf_pushed : pushed.2.2.library.tables.playlistsOf (.integer 1) = [goodView, badView] :=
  have ⟨_, _, _, h⟩ := stands_pushed
  h

theorem equipped_pushed : Equipped 1 pushed.2.2.library := by
  have ⟨hs, hlabels, hplaylists, hviews⟩ := stands_pushed
  have ⟨hu, hf⟩ := hs.stored
  refine .of_reached reached_pushed hu hf ?_ ?_
  case refine_1 =>
    rw [hlabels, hplaylists]
    decide
  case refine_2 =>
    rw [hviews]
    decide

theorem pushOf_keeping (l : Library.Store) : PushOf 1 l (keeping.trace (push 2) ⟨l, some session, []⟩).1
    (keeping.trace (push 2) ⟨l, some session, []⟩).2.1 (keeping.trace (push 2) ⟨l, some session, []⟩).2.2.library :=
  .intro keeping_fair keeping_renews rfl rfl (.inl rfl) (by decide) (fun _ => .refl _) (keeping.runs_trace (push 2) _)

theorem pushOf_service (l : Library.Store) : PushOf 1 l (service.trace (push 2) ⟨l.reconnect, some session, []⟩).1
    (service.trace (push 2) ⟨l.reconnect, some session, []⟩).2.1
    (service.trace (push 2) ⟨l.reconnect, some session, []⟩).2.2.library :=
  .intro service_fair service_obliging.toRenews rfl rfl (.inr rfl) (by decide) (fun _ => .refl _)
    (service.runs_trace (push 2) _)

-- The push of which no items can be taken away, and the one after it.

def spoiled : List Exchange × Except Failure Summary × Scene :=
  keeping.trace (push 2) ⟨pushed.2.2.library, some session, []⟩

def repaired : List Exchange × Except Failure Summary × Scene :=
  service.trace (push 2) ⟨spoiled.2.2.library.reconnect, some session, []⟩

theorem failed_pushed :
    (failed (requests spoiled.1 goodView.spotifyId) = [] ∧
      (failed (requests spoiled.1 badView.spotifyId)).map Prod.fst
        = [.removeItems "created0" [trackUri placeholderTrack]]) ∧
    ∀ v ∈ [goodView, badView], failed (requests repaired.1 v.spotifyId) = [] := by
  unfold repaired spoiled pushed
  rw [scene_kept]
  decide +kernel

end Playlist.Sample

open Playlist.Sample in
-- The criteria of the second label do not compile. Its playlist keeps the placeholder until the next push.
theorem Playlist.Equipped.push_confined_placeholder :
    Equipped 1 pushed.2.2.library ∧ PushOf 1 pushed.2.2.library spoiled.1 spoiled.2.1 spoiled.2.2.library ∧
    PushOf 1 spoiled.2.2.library repaired.1 repaired.2.1 repaired.2.2.library ∧
    (∃ e, spoiled.2.1 = .error e) ∧ (∃ total, repaired.2.1 = .ok total) ∧
    ∀ items : Contents,
      (∃ tracks, Due pushed.2.2.library.tables 1 spoiled.1 goodView tracks ∧
        items.replay (answered (called spoiled.1)) "playlist1" = tracks.map trackUri) ∧
      items.replay (answered (called spoiled.1)) "created0" = [trackUri placeholderTrack] ∧
      ∃ tracks, Due pushed.2.2.library.tables 1 repaired.1 badView tracks ∧
        items.replay (answered (called spoiled.1 ++ called repaired.1)) "created0" = tracks.map trackUri := by
  have hgood : goodView ∈ pushed.2.2.library.tables.playlistsOf (.integer 1) :=
    playlistsOf_pushed ▸ List.mem_cons_self
  have hbad : badView ∈ pushed.2.2.library.tables.playlistsOf (.integer 1) :=
    playlistsOf_pushed ▸ List.mem_cons_of_mem _ List.mem_cons_self
  have ⟨⟨hfilled, hfailed⟩, hagain⟩ := failed_pushed
  have hn : failed (requests spoiled.1 badView.spotifyId) ≠ [] := by
    intro hn
    rw [hn] at hfailed
    cases hfailed
  have hspoiled : PushOf 1 pushed.2.2.library spoiled.1 spoiled.2.1 spoiled.2.2.library := pushOf_keeping _
  have hrepaired : PushOf 1 spoiled.2.2.library repaired.1 repaired.2.1 repaired.2.2.library := pushOf_service _
  have h := Equipped.push_confined equipped_pushed hspoiled
  have hlater (items : Contents) :=
    (h items).right _ _ _ hrepaired fun v hv => hagain v (playlistsOf_pushed ▸ hv)
  refine ⟨equipped_pushed, hspoiled, hrepaired, ?_, (hlater fun _ => []).left, fun items => ?_⟩
  case refine_1 => exact (h fun _ => []).left.fails.mpr ⟨badView, hbad, hn⟩
  case refine_2 =>
    have ⟨tracks, c, reply, _, hf, hhalf⟩ := (h items).left.halfway badView hbad hn
    rw [hf] at hfailed
    obtain rfl : c = .removeItems "created0" [trackUri placeholderTrack] := List.singleton_inj.mp hfailed
    exact ⟨(h items).left.filled goodView hgood hfilled, hhalf.right, (hlater items).right badView hbad⟩

end LabelPlaylists
