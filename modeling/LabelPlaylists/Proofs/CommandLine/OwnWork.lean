import LabelPlaylists.Proofs.CommandLine.Lasting
import LabelPlaylists.Proofs.Favorites.Carried
import LabelPlaylists.Proofs.Library.Ownership

namespace LabelPlaylists

open Library (Command Kept Label Store Tables TrackView)
open Surroundings (Preserves)

namespace Library.Store

variable {s s' : Store} {now : Moment} {c : Command} {u : Int} {text : String}

-- An operation that just asks leaves the store alone and is answered from the tables.
theorem perform_ask_inv {values : List Datum} {f : Tables → Except Fault c.Reply} {a : c.Reply}
    (hw : work now c = do Work.bound values; Work.ask f) (h : s.perform now c = (.ok a, s')) :
    s' = s ∧ f s.tables = .ok a := by
  have ⟨_, s₁, hb, h₁⟩ := Work.bind_inv (hw ▸ perform_eq_ok_iff.mp h)
  obtain rfl := (Work.bound_inv hb).left
  unfold Work.ask at h₁
  split at h₁ <;> cases h₁
  case h_1 ha => exact ⟨rfl, ha⟩

-- Rows that are found for a user are the user's.

theorem perform_labelNamed_inv {l : Label}
    (h : s.perform now (.labelNamed (.integer u) (.text text)) = (.ok (some l), s')) :
    s' = s ∧ l ∈ s.tables.labels ∧ l.userId = u := by
  have ⟨hs, hl⟩ := perform_ask_inv (f := fun t => .ok (t.labelNamed? u text)) rfl h
  have hl := Except.ok.inj hl
  have hu : l.userId = u ∧ l.name = text := by simpa using List.find?_some hl
  exact ⟨hs, List.mem_of_find?_eq_some hl, hu.left⟩

theorem perform_trackNamed_inv {v : TrackView}
    (h : s.perform now (.trackNamed (.integer u) (.text text)) = (.ok (some v), s')) :
    s' = s ∧ v.track ∈ s.tables.tracks ∧ v.track.userId = u := by
  have ⟨hs, hv⟩ := perform_ask_inv (f := fun t => .ok (t.trackOf? u text >>= t.view?)) rfl h
  have ⟨r, hr, hv⟩ := Option.bind_eq_some_iff.mp (Except.ok.inj hv)
  have hu : r.userId = u ∧ r.spotifyId = text := by simpa using List.find?_some hr
  rw [Tables.view?_track hv]
  exact ⟨hs, List.mem_of_find?_eq_some hr, hu.left⟩

theorem perform_labelsWithoutPlaylist_inv {ls : List Label}
    (h : s.perform now (.labelsWithoutPlaylist (.integer u)) = (.ok ls, s')) :
    s' = s ∧ ∀ l ∈ ls, l ∈ s.tables.labels ∧ l.userId = u := by
  have ⟨hs, hl⟩ := perform_ask_inv (f := fun t => .ok (t.labelsWithoutPlaylist (.integer u))) rfl h
  refine ⟨hs, fun l hm => ?_⟩
  have ⟨hl, hu, _⟩ := Tables.mem_labelsWithoutPlaylist.mp (Except.ok.inj hl ▸ hm)
  exact ⟨hl, hu⟩

end Library.Store

-- A user is in session, if anybody is, and something holds of the library. What has been saved stands in the
-- tables still.
structure Scene.Holds (u : Int) (I : Tables → Prop) (a : Scene) : Prop where
  session : ∀ {x}, a.session = some x → x.userId = u
  tables  : I a.library.tables
  saved   : I a.library.saved
  order   : a.library.saved.ExtendsTo a.library.tables

-- What holds of the library, and of the row that has been found in it, if one has.
def Scene.Finds (u : Int) (I : Tables → Prop) (K : α → Tables → Prop) (found : Option α) (a : Scene) : Prop :=
  a.Holds u I ∧ ∀ row, found = some row → a.Holds u fun t => I t ∧ K row t

namespace Scene.Holds

variable {u : Int} {N : String → Prop} {I K : Tables → Prop} {a : Scene} {c : Command} {now : Moment}

theorem mono (h : a.Holds u I) (hi : ∀ {t}, I t → K t) : a.Holds u K :=
  { h with tables := hi h.tables, saved := hi h.saved }

theorem perform (h : a.Holds u I) (hk : Kept u N I) (hc : ∀ {t}, I t → c.IsOf u N t) :
    Holds u I { a with library := (a.library.perform now c).2 } :=
  have ⟨ht, hs⟩ := hk.perform hc h.tables h.saved
  ⟨h.session, ht, hs, Store.saved_extendsTo_perform h.order⟩

theorem track (h : a.Holds u I) (hk : Kept u N I) {r : Library.Track} (hr : r ∈ a.library.tables.tracks)
    (hu : r.userId = u) : a.Holds u fun t => I t ∧ t.TrackOf u r.id :=
  have ht := hu ▸ (hk.sound h.tables).trackOf hr
  { h with tables := ⟨h.tables, ht⟩, saved := ⟨h.saved, h.order.trackOf ht⟩ }

theorem labels (h : a.Holds u I) (hk : Kept u N I) {ls : List Label}
    (hl : ∀ l ∈ ls, l ∈ a.library.tables.labels ∧ l.userId = u) :
    a.Holds u fun t => I t ∧ ∀ l ∈ ls, t.LabelOf u l.id :=
  have ht l (hm : l ∈ ls) := (hl l hm).right ▸ (hk.sound h.tables).labelOf (hl l hm).left
  { h with tables := ⟨h.tables, ht⟩, saved := ⟨h.saved, fun l hm => h.order.labelOf (ht l hm)⟩ }

end Scene.Holds

variable {σ : Type} {S : Surroundings σ} {u : Int} {N : String → Prop} {I : Tables → Prop}

theorem holds_lasting (hk : Kept u N I) : S.Lasting (Scene.Holds u I) where
  rests := by
    intro s s' hr h
    rcases hr with hs | ⟨x, g, m, hx, _, _, _, t, _, ht, hs⟩ <;> rw [hs]
    case inl => exact h
    case inr =>
      have hc : (Command.setTokens (.integer x.userId) (.text g.accessToken) m (.ofOption g.refreshToken)).IsOf
          u N (S.scene s).library.tables := fun k he => Option.some.inj he ▸ h.session hx
      have hi := hk.step hc (.setTokens ht) h.tables
      have hu : x.userId = u := h.session hx
      exact ⟨fun he => by cases he; exact hu, hi, hi, .refl _⟩
  call  := fun _ h => ⟨h.session, h.tables, h.saved, h.order⟩

-- Whoever is asked for something that changes neither library nor session changes nothing that holds.
theorem Surroundings.Fair.holds_idle {r : Request} {s : σ} (hf : S.Fair) (hk : Kept u N I) (hr : r.IsIdle)
    (h : (S.scene s).Holds u I) : (S.scene (S.answer r s).2).Holds u I := by
  cases r <;> try exact hr.elim
  case library c =>
    have hc {t : Tables} (_ : I t) : c.IsOf u N t := by
      cases c <;> first | exact trivial | exact (hr trivial).elim
    by_cases hq : ∃ d f, c = .find d f
    case pos =>
      obtain ⟨d, f, rfl⟩ := hq
      rcases hf.find (u := d) (f := f) (s := s) with he | ⟨_, he⟩
      case inl => rw [(Prod.mk.inj he).right]; exact h.perform hk hc
      case inr => rwa [he]
    case neg =>
      rw [(Prod.mk.inj (S.library fun d f he => hq ⟨d, f, he⟩)).right]
      exact h.perform hk hc
  case grant    => rwa [S.grant]
  case now      => rwa [(Prod.mk.inj S.now).right]
  case log      => rwa [S.log]
  case session  => rwa [(Prod.mk.inj S.session).right]
  case print    => rwa [hf.print]
  case complain => rwa [hf.complain]
  case prompt   => rwa [hf.prompt]
  case secret   => rwa [hf.secret]

theorem Surroundings.Fair.preserves_idle {t : Program α} (hf : S.Fair) (hk : Kept u N I)
    (ht : t.Asks Request.IsIdle) : S.Preserves (Scene.Holds u I) t :=
  fun _ _ _ _ h => h.keeps (I := fun s => (S.scene s).Holds u I) ht (hf.holds_idle hk)

namespace Library.Kept

variable {c : Command} {s : σ} {name : String} {k : Int} {ids : List String} {workers : Int}

theorem preserves (hk : Kept u N I) (hq : ∀ d f, c ≠ .find d f) (hc : ∀ {t}, I t → c.IsOf u N t) :
    S.Preserves (Scene.Holds u I) (Program.library c) :=
  .library hq fun _ _ h => h.perform hk hc

-- What follows from an answer of the library may be made use of.
theorem leads_library {P : c.Reply → Scene → Prop} (hk : Kept u N I) (hq : ∀ d f, c ≠ .find d f)
    (hc : ∀ {t}, I t → c.IsOf u N t) (h : (S.scene s).Holds u I)
    (hp : ∀ a l, (S.scene s).library.perform (S.clock s) c = (.ok a, l) →
      Scene.Holds u I { S.scene s with library := l } → P a { S.scene s with library := l }) :
    S.Leads (Program.library c) s (fun a s' => P a (S.scene s')) fun s' => (S.scene s').Holds u I := by
  have ⟨hr, hs⟩ := Prod.mk.inj (S.library (s := s) hq)
  have he : Scene.Holds u I { S.scene s with library := ((S.scene s).library.perform (S.clock s) c).2 } :=
    h.perform hk hc
  refine .ask ?_
  rw [hr]
  rcases ho : (S.scene s).library.perform (S.clock s) c with ⟨_ | a, l⟩ <;> rw [ho] at hs he
  case error => exact .fail (hs ▸ he)
  case ok    => exact .done (hs ▸ hp a l ho he)

-- Whose a track or a label is, is known of those that are found by their names.

def trackOf (u : Int) (v : TrackView) (t : Tables) : Prop := t.TrackOf u v.track.id

def labelOf (u : Int) (l : Label) (t : Tables) : Prop := ∀ l' ∈ [l], t.LabelOf u l'.id

theorem leads_storedTrack (hk : Kept u N I) (h : (S.scene s).Holds u I) {id : String} :
    S.Leads (CommandLine.storedTrack? u id) s
      (fun found s' => (S.scene s').Finds u I (trackOf u) found) fun s' => (S.scene s').Holds u I := by
  refine leads_library (c := .trackNamed (.integer u) (.text id)) (P := Scene.Finds u I (trackOf u)) hk nofun
    (fun _ => trivial) h fun found l hp h' => ⟨h', ?_⟩
  rintro v rfl
  have ⟨hl, hm, hu⟩ := Store.perform_trackNamed_inv hp
  exact hl ▸ h.track hk hm hu

theorem leads_label (hk : Kept u N I) (h : (S.scene s).Holds u I) :
    S.Leads (CommandLine.label u name) s
      (fun l s' => (S.scene s').Holds u fun t => I t ∧ labelOf u l t) fun s' => (S.scene s').Holds u I := by
  have hl : S.Leads (Program.library (.labelNamed (.integer u) (.text name))) s
      (fun found s' => (S.scene s').Finds u I (labelOf u) found) fun s' => (S.scene s').Holds u I := by
    refine leads_library (c := .labelNamed (.integer u) (.text name)) (P := Scene.Finds u I (labelOf u)) hk
      nofun (fun _ => trivial) h fun found l hp h' => ⟨h', ?_⟩
    rintro l' rfl
    have ⟨hl, hm⟩ := Store.perform_labelNamed_inv hp
    exact hl ▸ h.labels hk (List.forall_mem_singleton.mpr hm)
  refine hl.bind fun {found s'} hp => ?_
  cases found
  case none   => exact .fail hp.left
  case some l => exact .done (hp.right l rfl)

-- What is done about a track that has been looked for keeps what holds if it does so for a track of the user.
theorem preserves_storedTrack (hk : Kept u N I) {id : String} {f : Option TrackView → Program α}
    (hn : S.Preserves (Scene.Holds u I) (f none))
    (hf : ∀ v (I' : Tables → Prop), Kept u N I' → (∀ {t}, I' t → I t ∧ t.TrackOf u v.track.id) →
      S.Preserves (Scene.Holds u I') (f (some v))) :
    S.Preserves (Scene.Holds u I) (CommandLine.storedTrack? u id >>= f) := by
  refine .bind_leads (P := fun found a => a.Finds u I (trackOf u) found) (fun s h => leads_storedTrack hk h)
    fun found s es o s' hr hp => ?_
  cases found
  case none   => exact hn _ _ _ _ hr hp.left
  case some v => exact (hf v _ hk.track (fun h => h) _ _ _ _ hr (hp.right v rfl)).mono And.left

theorem preserves_addEach (hk : Kept u N I) (hl : ∀ {t}, I t → t.LabelOf u k) :
    S.Preserves (Scene.Holds u I) (CommandLine.addEach u k ids) := by
  induction ids generalizing I
  case nil => exact .done
  case cons id rest hi =>
    refine hk.preserves_storedTrack .fail fun v I' hk hv => ?_
    refine (hk.preserves (by nofun) fun h => ?_).bind fun _ => hi hk fun h => hl (hv h).left
    constructor <;> rintro _ ⟨⟩
    · exact (hv h).right
    · exact hl (hv h).left

theorem preserves_removeEach (hk : Kept u N I) (hl : ∀ {t}, I t → t.LabelOf u k) :
    S.Preserves (Scene.Holds u I) (CommandLine.removeEach u k ids) := by
  induction ids generalizing I
  case nil => exact .done
  case cons id rest hi =>
    refine hk.preserves_storedTrack (hi hk hl) fun v I' hk hv => ?_
    refine (hk.preserves (by nofun) fun h => ?_).bind fun _ => hi hk fun h => hl (hv h).left
    constructor <;> rintro _ ⟨⟩
    · exact (hv h).right
    · exact hl (hv h).left

-- What is done with a label that has been found keeps what holds if it does so for a label of the user.
theorem preserves_label (hk : Kept u N I) {f : Label → Program α}
    (hf : ∀ l (I' : Tables → Prop), Kept u N I' → (∀ {t}, I' t → t.LabelOf u l.id) →
      S.Preserves (Scene.Holds u I') (f l)) :
    S.Preserves (Scene.Holds u I) (CommandLine.label u name >>= f) := by
  refine .bind_leads (P := fun l a => a.Holds u fun t => I t ∧ labelOf u l t) (fun _ => leads_label hk)
    fun l s es o s' hr h => ?_
  exact (hf l _ hk.labels (fun h => h.right l (List.mem_singleton_self l)) _ _ _ _ hr h).mono And.left

/-! ## Pulls and pushes -/

theorem carries (hk : Kept u N I) : Favorites.Carries S (· = u) (Scene.Holds u I) where
  session h hx := h.session hx
  lasting      := holds_lasting hk
  library hc _ _ h := h.perform hk fun _ => by
    cases hc
    case addTrack hu  => rintro _ ⟨⟩; exact hu
    case setTokens hu => rintro _ ⟨⟩; exact hu
    all_goals trivial

theorem preserves_call (hk : Kept u N I) {c : Spotify.Call} {schema : Spotify.Schema α} {message : String} :
    S.Preserves (Scene.Holds u I)
      (Account.Service.debug message >>= fun _ => Account.Service.call c schema) :=
  Preserves.bind .log fun _ => .call (holds_lasting hk)

theorem preserves_pushOne (hf : S.Fair) (hk : Kept u N I) {p : Library.PlaylistView} :
    S.Preserves (Scene.Holds u I) (Playlist.pushOne p) := by
  refine (hf.preserves_idle hk Playlist.asks_resolve).bind fun _ => ?_
  exact (Preserves.fill (holds_lasting hk)).bind fun _ => Preserves.bind .log fun _ => .done

-- A playlist is recorded for a label of the user.
theorem preserves_provideOne (hk : Kept u N I) {l : Label} (hl : ∀ {t}, I t → t.LabelOf u l.id) :
    S.Preserves (Scene.Holds u I) (Playlist.provideOne l) := by
  have hcreate {name description : String} :
      S.Preserves (Scene.Holds u I) (Account.Service.createPlaylist name description false) :=
    Preserves.bind .session fun _ => hk.preserves_call
  refine hcreate.bind fun created => .session_bind (fun h => h.session) fun x hx => ?_
  have hc {t : Tables} (h : I t) :
      (Command.addPlaylist (.integer x.userId) (.integer l.id) (.text created.id)).IsOf u N t := by
    constructor <;> rintro _ ⟨⟩
    · exact hx
    · exact hl h
  exact (hk.preserves (by nofun) hc).bind fun _ => Preserves.bind .log fun _ => .done

variable {first : List Label → List Label} {arrange : List Library.PlaylistView → List Library.PlaylistView}

theorem preserves_provideIn (hk : Kept u N I) (hp : ∀ ls, (first ls).Perm ls) :
    S.Preserves (Scene.Holds u I) (Playlist.provideIn first workers) := by
  refine .session_bind (fun h => h.session) ?_
  rintro x rfl
  let P (ls : List Label) (a : Scene) : Prop :=
    a.Holds x.userId fun t => I t ∧ ∀ l ∈ ls, t.LabelOf x.userId l.id
  refine .bind_leads (P := P) (fun s h => ?_) fun ls s es o s' hr h => ?_
  case refine_1 =>
    refine leads_library (c := .labelsWithoutPlaylist (.integer x.userId)) (P := P) hk nofun (fun _ => trivial) h
      fun ls l hp _ => ?_
    have ⟨hl, hm⟩ := Store.perform_labelsWithoutPlaylist_inv hp
    exact hl ▸ h.labels hk hm
  case refine_2 =>
    suffices hw : S.Preserves (Scene.Holds x.userId fun t => I t ∧ ∀ l ∈ ls, t.LabelOf x.userId l.id) _ from
      (hw _ _ _ _ hr h).mono And.left
    split
    case isTrue  => exact .done
    case isFalse =>
      refine Preserves.bind .log fun _ => Preserves.bind (.inParallel fun l hl => ?_) fun _ => .done
      exact hk.labels.preserves_provideOne fun h => h.right l ((hp ls).mem_iff.mp hl)

theorem preserves_pushIn (hf : S.Fair) (hk : Kept u N I) (hp : ∀ ls, (first ls).Perm ls) :
    S.Preserves (Scene.Holds u I) (Playlist.pushIn first arrange workers) := by
  have heach : S.Preserves (Scene.Holds u I) (Playlist.pushEachIn arrange workers) :=
    Preserves.bind .session fun _ => (hk.preserves (by nofun) fun _ => by trivial).bind fun _ =>
      .inParallel fun _ _ => hk.preserves_pushOne hf
  exact (hk.preserves_provideIn hp).bind fun _ => heach.bind fun _ => Preserves.bind .log fun _ => .done

/-! ## Commands -/

open CommandLine in
-- The user in session keeps what holds by every command but a login.
theorem preserves_errand (hf : S.Fair) (hk : Kept u N I) {t : Program Unit} (ht : IsErrand t)
    (hl : ∀ s, t ≠ login s) : S.Preserves (Scene.Holds u I) t := by
  have hprint {text : String} : S.Preserves (Scene.Holds u I) (Program.print text) :=
    hf.preserves_idle hk (asks_print trivial)
  have hsession {a : Scene} {x : Session} (h : a.Holds u I) : a.session = some x → x.userId = u := h.session
  cases ht
  case login s    => exact absurd rfl (hl s)
  case pull       => exact hk.carries.pull.bind fun _ => hprint
  case listTracks =>
    refine Preserves.bind .session fun _ => (hf.preserves_idle hk asks_tracksOfPage).bind fun _ => ?_
    split <;> exact hprint
  case listLabels =>
    refine Preserves.bind .session fun _ => (hk.preserves (by nofun) fun _ => by trivial).bind fun _ => ?_
    split <;> exact hprint
  case createLabel =>
    refine .session_bind hsession fun x hx => (hk.preserves (by nofun) fun _ => by trivial).bind fun found => ?_
    cases found
    case some => exact .fail
    case none =>
      refine (hk.preserves (by nofun) fun _ => ?_).bind fun _ => hprint
      rintro _ ⟨⟩
      exact hx
  case setCriteria name criteria =>
    refine .session_bind hsession ?_
    rintro x rfl
    refine hk.preserves_label fun l I' hk hl => (hk.preserves (by nofun) fun {t} h => ?_).bind fun _ => ?_
    case refine_1 => rintro _ ⟨⟩; exact hl h
    case refine_2 => exact hf.preserves_idle hk (asks_print trivial)
  case addTracks =>
    refine .session_bind hsession ?_
    rintro x rfl
    refine hk.preserves_label fun l I' hk hl => (hk.preserves_addEach hl).bind fun _ => ?_
    exact hf.preserves_idle hk (asks_print trivial)
  case removeTracks =>
    refine .session_bind hsession ?_
    rintro x rfl
    refine hk.preserves_label fun l I' hk hl => (hk.preserves_removeEach hl).bind fun _ => ?_
    exact hf.preserves_idle hk (asks_print trivial)

end Library.Kept

end LabelPlaylists
