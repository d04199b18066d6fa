import LabelPlaylists.Proofs.CommandLine.OwnWork
import LabelPlaylists.Proofs.Playlist.Materialized
import LabelPlaylists.Proofs.Playlist.Recounted

namespace LabelPlaylists

open Library (Label PlaylistView Tables)
open Account (asks_log)
open Playlist
open Program (Work)
open Request (covers_apart)

namespace Library

-- A playlist is put into the tables.
theorem Tables.addPlaylist_inv {t t' : Tables} {u k : Int} {id : String} {n : Nat}
    (h : t.addPlaylist (.integer u) (.integer k) (.text id) = .ok (t', n)) :
    k ∉ t.playlists.map (·.labelId) ∧ u ∈ t.users.map (·.id) ∧ k ∈ t.labels.map (·.id) ∧ t' = { t with
      playlists    := t.playlists ++ [⟨t.lastPlaylist + 1, u, k, id⟩]
      lastPlaylist := t.lastPlaylist + 1 } := by
  simp only [addPlaylist, bind_eq_ok_iff, required_eq_ok_iff] at h
  obtain ⟨owner, ho, carrier, hc, name, hi, h⟩ := h
  cases hi
  cases owner <;> cases carrier <;> dsimp only at h <;> try cases h
  case none.some => split at h <;> cases h
  case some.some =>
    cases whole?_of_requiredReference ho
    cases whole?_of_requiredReference hc
    split at h <;> try cases h
    case isFalse hn =>
      split at h <;> cases h
      case isFalse hr =>
        obtain ⟨hu, hl⟩ := isSome_of_not_isNone hr
        exact ⟨mt playlistOf?_isSome_iff.mpr hn, user?_isSome_iff.mp hu, label?_isSome_iff.mp hl, rfl⟩

theorem Store.perform_addPlaylist_inv {s s' : Store} {now : Moment} {u k : Int} {id : String}
    {a : (Command.addPlaylist (.integer u) (.integer k) (.text id)).Reply}
    (h : s.perform now (.addPlaylist (.integer u) (.integer k) (.text id)) = (.ok a, s')) :
    s'.saved = s'.tables ∧ ∃ n, s.tables.addPlaylist (.integer u) (.integer k) (.text id) = .ok (s'.tables, n) := by
  refine ⟨perform_writes (by trivial) h, ?_⟩
  have ⟨_, s₁, hb, h₁⟩ := Work.bind_inv (perform_eq_ok_iff.mp h)
  obtain rfl := (Work.bound_inv hb).left
  have ⟨n, s₂, hc, h₂⟩ := Work.bind_inv h₁
  have ⟨t, ht, hs₂⟩ := Work.change_inv hc
  have hs' : s'.tables = t := by
    cases h₂
    rw [hs₂]
  exact ⟨n, hs' ▸ ht⟩

end Library

namespace Surroundings.Fair

variable {σ : Type} {S : Surroundings σ} {s : σ} {r : Request}

-- Whoever is asked for something that changes neither library nor session leaves all as it is, if nothing is left to
-- be made permanent.
theorem idle (hf : S.Fair) (hr : r.IsIdle) (hs : (S.scene s).library.saved = (S.scene s).library.tables) :
    S.scene (S.answer r s).2 = S.scene s := by
  cases r <;> try exact hr.elim
  case library c =>
    have hidle (now : Moment) : { S.scene s with library := ((S.scene s).library.perform now c).2 } = S.scene s := by
      rw [Library.Store.perform_idle hr hs]
    by_cases hq : ∃ d f, c = .find d f
    case pos =>
      obtain ⟨d, f, rfl⟩ := hq
      rcases hf.find (u := d) (f := f) (s := s) with he | ⟨_, he⟩
      case inl => exact (Prod.mk.inj he).right.trans (hidle _)
      case inr => exact he
    case neg => exact (Prod.mk.inj (S.library fun d f he => hq ⟨d, f, he⟩)).right.trans (hidle _)
  case grant    => exact S.grant
  case now      => exact (Prod.mk.inj S.now).right
  case log      => exact S.log
  case session  => exact (Prod.mk.inj S.session).right
  case print    => exact hf.print
  case complain => exact hf.complain
  case prompt   => exact hf.prompt
  case secret   => exact hf.secret

end Surroundings.Fair

namespace Playlist

-- Labels have got playlists, and nothing else has changed but tokens.
structure Stocked (u : Int) (ls : List Label) (a a' : Scene) : Prop where
  filling   : Filling u a'.library.tables a'
  labels    : a'.library.tables.labels = a.library.tables.labels
  before    : a.library.tables.playlists.map (·.labelId) ⊆ a'.library.tables.playlists.map (·.labelId)
  playlists : ls.map (·.id) ⊆ a'.library.tables.playlists.map (·.labelId)

variable {u : Int} {ls ls' : List Label} {a a' a'' : Scene} {t : Tables}

theorem Filling.self (h : Filling u t a) : Filling u a.library.tables a :=
  { h with matched := .refl, playlists := rfl }

theorem Stocked.trans (h : Stocked u ls a a') (h' : Stocked u ls' a' a'') : Stocked u (ls ++ ls') a a'' where
  filling   := h'.filling
  labels    := h'.labels.trans h.labels
  before    := List.Subset.trans h.before h'.before
  playlists := by
    rw [List.map_append]
    exact List.append_subset.mpr ⟨List.Subset.trans h.playlists h'.before, h'.playlists⟩

theorem Stocked.nil (h : Filling u t a) : Stocked u [] a a :=
  ⟨h.self, rfl, List.Subset.refl _, List.nil_subset _⟩

-- All labels of the user have playlists once those have got one that had none.
theorem Stocked.all (h : Stocked u ls a a') (hp : ls.Perm (a.library.tables.labelsWithoutPlaylist (.integer u)))
    {l : Label} (hl : l ∈ a.library.tables.labels) (hu : l.userId = u) :
    l.id ∈ a'.library.tables.playlists.map (·.labelId) := by
  by_cases hn : l.id ∈ a.library.tables.playlists.map (·.labelId)
  case pos => exact h.before hn
  case neg =>
    exact h.playlists (List.mem_map_of_mem (hp.mem_iff.mpr (Tables.mem_labelsWithoutPlaylist.mpr ⟨hl, hu, hn⟩)))

end Playlist

namespace Surroundings

variable {σ : Type} {S : Surroundings σ} {s s' : σ} {es : List Exchange} {u : Int} {t : Tables} {l : Label}
variable {workers : Int} {first : List Label → List Label} {arrange : List PlaylistView → List PlaylistView}

theorem Runs.library_ok_performs {c : Library.Command} {a : c.Reply} (hc : ∀ u f, c ≠ .find u f)
    (h : S.Runs (Program.library c) s es (.ok a) s') :
    ∃ l, (S.scene s).library.perform (S.clock s) c = (.ok a, l) ∧ S.scene s' = { S.scene s with library := l } := by
  have ⟨_, ho, hs⟩ := h.library_inv hc
  refine ⟨_, Prod.ext ?_ rfl, hs⟩
  cases hr : ((S.scene s).library.perform (S.clock s) c).1 <;> rw [hr] at ho <;> cases ho
  rfl

-- The playlist of a label is created and put into the library.
theorem Runs.provideOne_ok_inv {id : String} (hp : Filling u t (S.scene s))
    (h : S.Runs (provideOne l) s es (.ok id) s') : Stocked u [l] (S.scene s) (S.scene s') := by
  have ⟨created, s₁, _, _, _, h₁, h⟩ := h.bind_ok_inv
  have hcreate : S.Preserves (Filling u (S.scene s).library.tables)
      (Account.Service.createPlaylist (nameOf l.name) (descriptionOf l.name) false) :=
    Preserves.bind .session fun _ => Preserves.bind .log fun _ => .call filling_lasting
  have hp := hcreate _ _ _ _ h₁ hp.self
  have ⟨x, hx, hxu⟩ := hp.session
  have ⟨_, s₂, _, hs₂, h⟩ := h.session_bind_inv hx
  rw [hxu] at h
  rw [← hs₂] at hp hx
  have ⟨_, s₃, _, _, _, h₃, h⟩ := h.bind_ok_inv
  have ⟨_, _, s₄, _, hs₄, h⟩ := h.log_bind_inv
  have ⟨store, hperform, hs₃⟩ := h₃.library_ok_performs (by nofun)
  have ⟨hsaved, _, hadd⟩ := Library.Store.perform_addPlaylist_inv hperform
  have ⟨hn, hu, hl, ht⟩ := Tables.addPlaylist_inv hadd
  have hs : S.scene s' = { S.scene s₂ with library := store } := by rw [h.done_inv.right.right, hs₄, hs₃]
  rw [hs]
  have hsound : store.tables.Sound := ht ▸ hp.sound.addPlaylist rfl hn hu hl
  refine ⟨⟨⟨x, hx, hxu⟩, ?_, hsound, hsaved, .refl, rfl⟩, ?_, ?_, ?_⟩ <;> simp only [ht]
  case refine_1 => exact hu
  case refine_2 => exact hp.matched.labels
  case refine_3 => simp [hp.playlists]
  case refine_4 => simp

theorem Each.stocks {labels : List Label} {found : List (Label × Except Failure String)}
    (hp : Filling u t (S.scene s)) (hok : ∀ r ∈ found, ∃ id, r.2 = .ok id)
    (h : S.Each provideOne labels s es found s') :
    Stocked u labels (S.scene s) (S.scene s') := by
  induction h generalizing t
  case nil => exact .nil hp
  case cons h₁ _ hr =>
    have ⟨⟨_, ho⟩, hrest⟩ := List.forall_mem_cons.mp hok
    cases ho
    have hone := h₁.provideOne_ok_inv hp
    exact hone.trans (hr hone.filling hrest)

-- The labels that have no playlist get one.
theorem Runs.provideIn_ok_inv {n : Nat} (hfirst : ∀ ls, (first ls).Perm ls) (hp : Filling u t (S.scene s))
    (h : S.Runs (provideIn first workers) s es (.ok n) s') :
    ∃ labels, labels.Perm ((S.scene s).library.tables.labelsWithoutPlaylist (.integer u)) ∧
      Stocked u labels (S.scene s) (S.scene s') := by
  refine ⟨_, hfirst _, ?_⟩
  have ⟨x, hx, hxu⟩ := hp.session
  have ⟨_, s₁, _, hs₁, h⟩ := h.session_bind_inv hx
  rw [hxu] at h
  have ⟨labels, s₂, _, _, _, h₂, h⟩ := h.bind_ok_inv
  have ⟨store, hperform, hs₂⟩ := h₂.library_ok_performs (by nofun)
  rcases (S.scene s₁).library.perform_asking (c := .labelsWithoutPlaylist (.integer u)) rfl
    with ⟨_, hq⟩ | ⟨_, hq⟩ <;> cases hperform.symm.trans hq
  have hs₂ : S.scene s₂ = S.scene s := hs₂.trans hs₁
  rw [hs₁] at h
  rw [← hs₂] at hp h ⊢
  split at h
  case isTrue hn =>
    rw [((hfirst _).trans (.of_eq (List.isEmpty_iff.mp hn))).eq_nil, h.done_inv.right.right]
    exact .nil hp
  case isFalse =>
    have ⟨_, _, s₃, _, hs₃, h⟩ := h.log_bind_inv
    rw [← hs₃] at hp h ⊢
    have ⟨results, s₄, _, _, _, h₄, h⟩ := h.bind_ok_inv
    rw [h.done_inv.right.right]
    rcases h₄.inParallel_inv with ⟨_, _, _, _, ho⟩ | ⟨found, s₅, _, _, hfound, _, _, hs₅, hor⟩
    case inl => cases ho
    rw [hs₅]
    refine hfound.stocks hp fun r hr => ?_
    rcases hor with ⟨_, _, rfl⟩ | ⟨_, _, ho, _⟩
    case inl =>
      have ⟨r', _, he⟩ := List.mem_map.mp hr
      exact ⟨r'.2, he ▸ rfl⟩
    case inr => cases ho

-- The playlists that are listed are pushed.
theorem Runs.pushEachIn_ok_inv {results : List (PlaylistView × Nat × Bool)} (hf : S.Fair)
    (hp : Filling u t (S.scene s)) (h : S.Runs (pushEachIn arrange workers) s es (.ok results) s') :
    Filling u t (S.scene s') ∧ ∃ before pushes, es = before ++ Push.course pushes ∧
      (∀ e ∈ before, e.request.IsApart ∧ e.call? = none) ∧
      pushes.map (·.item) = arrange (t.playlistsOf (.integer u)) ∧
      List.Forall₂ (Work.Yields pushOne) pushes results := by
  have hpush {v} : S.Preserves (Filling u t) (pushOne v) := by
    refine Preserves.bind (fun _ _ _ _ h hp => ?_) fun _ => (Preserves.fill filling_lasting).bind fun _ =>
      Preserves.bind .log fun _ => .done
    exact h.keeps (I := fun s => Filling u t (S.scene s)) asks_resolve
      (fun hr hi => (hf.idle hr hi.saved).symm ▸ hi) hp
  have ⟨x, hx, hxu⟩ := hp.session
  have ⟨_, s₁, he₁, hs₁, h⟩ := h.session_bind_inv hx
  rw [hxu] at h
  have ⟨views, s₂, listed, _, he₂, h₂, h⟩ := h.bind_ok_inv
  have ⟨store, hperform, hs₂⟩ := h₂.library_ok_performs (by nofun)
  rcases (S.scene s₁).library.perform_asking (c := .playlists (.integer u)) rfl
    with ⟨_, hq⟩ | ⟨_, hq⟩ <;> cases hperform.symm.trans hq
  have hs₂ : S.scene s₂ = S.scene s := hs₂.trans hs₁
  rw [hs₁, hp.matched.playlistsOf hp.playlists] at h
  rw [← hs₂] at hp
  refine ⟨Preserves.inParallel (fun _ _ => hpush) _ _ _ _ h hp, ?_⟩
  have ⟨pushes, hitems, hes, hpushes⟩ := h.plays.inParallel_ok_inv
  refine ⟨⟨.session, some x⟩ :: listed, pushes, by rw [he₁, he₂, hes]; rfl, ?_, hitems, hpushes⟩
  rw [h₂.plays.library_ok_inv]
  exact List.forall_mem_cons.mpr ⟨⟨trivial, rfl⟩, List.forall_mem_singleton.mpr ⟨trivial, rfl⟩⟩

end Surroundings

namespace Library.Tables

variable {t : Tables} {u : Int}

-- A label is listed with one playlist at most.
theorem Sound.nodup_listed (h : t.Sound) : ((t.playlistsOf (.integer u)).map (·.labelId)).Nodup := by
  have hp := (List.pairwise_map.mp h.playlistLabels).filter fun p => p.userId = u
  refine List.pairwise_map.mpr (hp.filterMap _ fun p p' hne v hv v' hv' => ?_)
  have ⟨l, hl, hv⟩ := Option.map_eq_some_iff.mp hv
  have ⟨l', hl', hv'⟩ := Option.map_eq_some_iff.mp hv'
  rw [← hv, ← hv', ((label?_eq_some_iff h).mp hl).right, ((label?_eq_some_iff h).mp hl').right]
  exact hne

-- A user whose playlists are of labels of the same user has no two of them with the same label name.
theorem Sound.nodup_listedNames (h : t.Sound) (ho : t.Owned) :
    ((t.playlistsOf (.integer u)).map (·.labelName)).Nodup := by
  refine List.pairwise_map.mpr ((List.pairwise_map.mp h.nodup_listed).imp_of_mem fun {v v'} hv hv' hne hn => hne ?_)
  have ⟨p, hp, hu, l, hl, hi, hk⟩ := (mem_playlistsOf h).mp hv
  have ⟨p', hp', hu', l', hl', hi', hk'⟩ := (mem_playlistsOf h).mp hv'
  subst hk hk'
  have hll : l = l' := by
    refine List.inj_on_of_nodup_map h.labelNames hl hl' (Prod.ext ?_ hn)
    exact (ho.playlists p hp l hl hi).trans (hu.trans (hu'.symm.trans (ho.playlists p' hp' l' hl' hi').symm))
  exact congrArg Label.id hll

-- A label with a playlist is listed.
theorem Sound.shown (h : t.Sound) (ho : t.Owned) {l : Label} (hl : l ∈ t.labels)
    (hm : l.id ∈ t.playlists.map (·.labelId)) : ∃ v ∈ t.playlistsOf (.integer l.userId), Shows v l := by
  have ⟨p, hp, hid⟩ := List.mem_map.mp hm
  have hu : p.userId = l.userId := (ho.playlists p hp l hl hid.symm).symm
  exact ⟨_, (mem_playlistsOf h).mpr ⟨p, hp, hu, l, hl, hid.symm, rfl⟩, rfl, rfl, rfl⟩

end Library.Tables

namespace Playlist

-- The zero of a sum is the one that numerals have.
attribute [local instance (high)] Zero.ofOfNat0

-- The number of items in the playlists of a user.
def held (t : Tables) (u : Int) (items : Contents) : Nat :=
  ((t.playlistsOf (.integer u)).map fun v => (items v.spotifyId).length).sum

-- What a push says of itself is so. The playlists have been pushed one after the other.
structure Exact (t : Tables) (u : Int) (es : List Exchange) (total : Summary) (pushes : List Push) : Prop where
  course   : Push.course pushes <:+: es
  plays    : ∀ p ∈ pushes, ∃ a, (pushOne p.item).Plays p.exchanges (.ok a)
  all      : (pushes.map (·.item)).Perm (t.playlistsOf (.integer u))
  created  : total.created = (called es).countP (·.1.IsCreation)
  synced   : total.synced = (t.playlistsOf (.integer u)).length
  -- It does not matter what has been in the playlists before.
  tracks   : ∀ items : Contents, total.tracks = (pushes.map (·.size items)).sum
  -- No playlist is filled again for another label.
  remain   : ((t.playlistsOf (.integer u)).map (·.spotifyId)).Nodup →
    ∀ items : Contents, total.tracks = held t u (items.replay (answered (called es)))
  failures : total.failures = Library.sorted ((pushes.filter Push.isUnmet).map (·.item.labelName))
  reports  : (reports es).map reportKey
    = (pushes.filter Push.isUnmet).map fun p => (p.item.labelName, p.item.criteria)
  once     : (pushes.map (·.item.labelId)).Nodup
  owned    : t.Owned → total.failures.Nodup ∧ ∀ l ∈ t.labels, l.userId = u → ∃ p ∈ pushes, Shows p.item l

theorem held_eq_sum {t : Tables} {u : Int} {pushes : List Push} {results : List (PlaylistView × Nat × Bool)}
    (h : List.Forall₂ (Work.Yields pushOne) pushes results)
    (hp : (pushes.map (·.item)).Perm (t.playlistsOf (.integer u)))
    (hn : ((t.playlistsOf (.integer u)).map (·.spotifyId)).Nodup) (items : Contents) :
    held t u (items.replay (answered (called (Push.course pushes)))) = (pushes.map (·.size items)).sum := by
  have hids := (hp.map (·.spotifyId)).nodup_iff.mpr hn
  rw [List.map_map] at hids
  rw [held, ← (hp.map _).sum_nat, List.map_map]
  exact congrArg List.sum (length_replay h hids items)

end Playlist

namespace Surroundings

variable {σ : Type} {S : Surroundings σ} {s s' : σ} {es : List Exchange} {u : Int} {t : Tables}
variable {workers : Int} {first : List Label → List Label} {arrange : List PlaylistView → List PlaylistView}

theorem Runs.pushIn_ok_inv {total : Summary} (hf : S.Fair) (hfirst : ∀ ls, (first ls).Perm ls)
    (ha : ∀ ps, (arrange ps).Perm ps) (hp : Filling u t (S.scene s))
    (h : S.Runs (pushIn first arrange workers) s es (.ok total) s') :
    ∃ pushes, Exact (S.scene s').library.tables u es total pushes := by
  have ⟨n, s₁, before, _, he, h₁, h⟩ := h.bind_ok_inv
  have ⟨results, s₂, made, after, he₁, h₂, h⟩ := h.bind_ok_inv
  have hafter := reports_eq_nil (h.plays.forall_mem ((asks_log (covers_apart.log ..)).bind fun _ => .done))
  have ⟨_, _, s₃, he₂, hs₃, h⟩ := h.log_bind_inv
  have ⟨hn, ho, hs'⟩ := h.done_inv
  cases ho
  have ⟨labels, hlabels, hstocked⟩ := h₁.provideIn_ok_inv hfirst hp
  have ⟨hp₂, listed, pushes, hmade, hlisted, hitems, hpushes⟩ := h₂.pushEachIn_ok_inv hf hstocked.filling
  have hrecount := recounted hpushes
  -- Labels are provided for, the playlists are listed, they are pushed one after the other, and the sum is logged.
  have hcourse : es = (before ++ listed) ++ Push.course pushes ++ after := by rw [he, he₁, hmade]; simp
  have hperm : (pushes.map (·.item)).Perm ((S.scene s₂).library.tables.playlistsOf (.integer u)) := by
    rw [hp₂.matched.playlistsOf hp₂.playlists, hitems]
    exact ha _
  have hpushed : called made = called (Push.course pushes) := by
    have hnone : called listed = [] := LabelPlaylists.called_eq_nil fun e hm => (hlisted e hm).right
    rw [hmade, called_append, hnone, List.nil_append]
  have hcalled : called es = called before ++ called (Push.course pushes) := by
    rw [he, he₁, he₂, hn]
    simp [hpushed, Exchange.call?]
  have hreports : reports es = reports (Push.course pushes) := by
    have hbefore := reports_eq_nil (h₁.plays.forall_mem asks_apartProvideIn)
    have hnone := reports_eq_nil fun e hm => (hlisted e hm).left
    rw [hcourse]
    simp [hbefore, hnone, hafter]
  rw [hs', hs₃]
  exact ⟨pushes, {
    course   := ⟨before ++ listed, after, hcourse.symm⟩
    plays    := fun p hp => by
      obtain ⟨r, _, hr⟩ := exists_of_forall₂ hpushes hp
      exact ⟨r.2, hr.item ▸ hr.plays⟩
    all      := hperm
    created  := by
      rw [hcalled, List.countP_append, ← hpushed, h₂.plays.pushEachIn_creates_none]
      exact h₁.plays.provideIn_ok_inv
    synced   := by
      show results.length = _
      rw [← hpushes.length_eq, ← hperm.length_eq, List.length_map]
    tracks   := fun items => congrArg List.sum (hrecount.tracks items)
    remain   := fun hids items => by
      rw [hcalled, answered_append, Contents.replay_append, held_eq_sum hpushes hperm hids]
      exact congrArg List.sum (hrecount.tracks _)
    failures := congrArg Library.sorted hrecount.failures
    reports  := by rw [hreports, hrecount.reports]
    once     := by
      have hn := (hperm.map (·.labelId)).nodup_iff.mpr hp₂.sound.nodup_listed
      rwa [List.map_map] at hn
    owned    := fun howned => by
      refine ⟨?_, fun l hl hlu => ?_⟩
      case refine_1 =>
        have hn := (hperm.map (·.labelName)).nodup_iff.mpr (hp₂.sound.nodup_listedNames howned)
        rw [List.map_map] at hn
        show (Library.sorted _).Nodup
        rw [hrecount.failures]
        exact (List.mergeSort_perm ..).nodup_iff.mpr (hn.sublist (List.filter_sublist.map _))
      case refine_2 =>
        have hm := hstocked.all hlabels (hstocked.labels ▸ hp₂.matched.labels ▸ hl) hlu
        obtain ⟨v, hv, hshows⟩ := hp₂.sound.shown howned hl (hp₂.playlists ▸ hm)
        obtain ⟨p, hp, he⟩ := List.mem_map.mp (hperm.mem_iff.mpr (hlu ▸ hv))
        exact ⟨p, hp, he ▸ hshows⟩ }⟩

-- A push that comes to its end has counted right, whatever the searches for the tracks of smart labels have come to.
-- If the tracks of a static label cannot be told, no push comes to its end, whoever replies.
theorem Runs.push_exact {x : Session} {total : Summary} (hf : S.Fair) (hx : (S.scene s).session = some x)
    (hu : x.userId ∈ (S.scene s).library.tables.users.map (·.id)) (hs : (S.scene s).library.tables.Sound)
    (hsv : (S.scene s).library.saved = (S.scene s).library.tables) (hfirst : ∀ ls, (first ls).Perm ls)
    (ha : ∀ ps, (arrange ps).Perm ps) (h : S.Runs (pushIn first arrange workers) s es (.ok total) s') :
    (∃ pushes, Exact (S.scene s').library.tables x.userId es total pushes) ∧
      ∀ {es' o d f}, (pushIn first arrange workers).Plays es' o → ⟨.library (.labelTracks d), .error f⟩ ∈ es' →
        ∃ pushes, BrokenOff pushes es' o ∧ ∃ p ∈ pushes, Untold p f :=
  have hp : Filling x.userId (S.scene s).library.tables (S.scene s) := ⟨⟨x, hx, rfl⟩, hu, hs, hsv, .refl, rfl⟩
  ⟨h.pushIn_ok_inv hf hfirst ha hp, fun h hm => h.pushIn_untold hm⟩

end Surroundings

namespace Playlist.Sample

-- Two labels share a playlist: one with a favorite, and one without any.
def sharing : Scene :=
  Favorites.Sample.scene
    { Favorites.Sample.tables with
      tracks       := [⟨1, 1, "t1", "Title", "album", "2024-01-01T00:00:00Z", false⟩]
      labels       := [⟨1, 1, "Full", none, "now"⟩, ⟨2, 1, "Void", none, "now"⟩]
      memberships  := [⟨1, 1⟩]
      playlists    := [⟨1, 1, 1, "shared"⟩, ⟨2, 1, 2, "shared"⟩]
      lastTrack    := 1
      lastLabel    := 2
      lastPlaylist := 2 }

def shared : Summary := ⟨0, 2, 1, []⟩

theorem trace_sharing : (service.trace (push 2) sharing).2.1.toOption = some shared ∧
    (service.trace (push 2) sharing).2.2.library.tables.playlistsOf (.integer 1)
      = [⟨1, "shared", 1, "Full", none⟩, ⟨2, "shared", 2, "Void", none⟩] ∧
    answered (called (service.trace (push 2) sharing).1)
      = filling "shared" ["t1"] ++ filling "shared" [] := by
  decide +kernel

theorem sharing_sound : sharing.library.tables.Sound := by
  constructor <;> simp [sharing, Favorites.Sample.scene, Favorites.Sample.tables, Favorites.Sample.user]

end Playlist.Sample

open Playlist.Sample in
-- The favorite that has been counted has gone again.
theorem Playlist.push_sharing_miscounts :
    sharing.library.tables.Sound ∧ ∃ es s', service.Runs (push 2) sharing es (.ok shared) s' ∧
      ∀ items : Contents, held s'.library.tables 1 (items.replay (answered (called es))) ≠ shared.tracks := by
  have h := service.runs_trace (push 2) sharing
  have hq := trace_sharing
  generalize service.trace (push 2) sharing = r at h hq
  obtain ⟨es, o, s'⟩ := r
  obtain ⟨ho, hviews, hcalls⟩ := hq
  cases o <;> cases ho
  refine ⟨sharing_sound, es, s', h, fun items => ?_⟩
  rw [held, hviews, hcalls]
  simp [Contents.replay_filling, shared]

namespace Playlist.Sample

def fault : Library.Failure := .outOfOrder "disk I/O error"

-- A service as before, but the library cannot be searched for anything that criteria name.
def doubtingAnswer : (r : Request) → Scene → r.Reply × Scene
  | .library (.find _ (some ⟨_, _ :: _⟩)), a => (.error fault, a)
  | r, a => answer r a

def doubting : Surroundings Scene where
  answer     := doubtingAnswer
  scene      := id
  clock      := fun _ => Favorites.Sample.noon
  library    := by
    intro c a hc
    cases c <;> first | rfl | exact absurd rfl (hc _ _)
  call       := by
    intro _ c _
    cases c <;> rfl
  grant      := rfl
  now        := rfl
  log        := rfl
  session    := rfl
  setSession := rfl

theorem doubting_fair : doubting.Fair where
  find     := by
    intro u f a
    rcases f with _ | ⟨_, _ | _⟩
    case some.cons => exact .inr ⟨⟨_, rfl, nofun⟩, rfl⟩
    all_goals exact .inl rfl
  print    := rfl
  complain := rfl
  prompt   := rfl
  secret   := rfl

-- Playlists come to be empty for four reasons.
def mixed : Scene :=
  Favorites.Sample.scene
    { Favorites.Sample.tables with
      tracks       := [⟨1, 1, "t1", "Title", "album", "2024-01-01T00:00:00Z", false⟩]
      labels       :=
        [⟨1, 1, "Full", none, "now"⟩, ⟨2, 1, "Void", none, "now"⟩, ⟨3, 1, "Wrong", some "year >", "now"⟩,
          ⟨4, 1, "Quiet", some "explicit", "now"⟩, ⟨5, 1, "Jazz", some "genre = \x22jazz\x22", "now"⟩]
      memberships  := [⟨1, 1⟩]
      playlists    := [⟨1, 1, 1, "full"⟩, ⟨2, 1, 2, "void"⟩]
      lastTrack    := 1
      lastLabel    := 5
      lastPlaylist := 2 }

theorem mixed_sound : mixed.library.tables.Sound := by
  constructor <;> simp [mixed, Favorites.Sample.scene, Favorites.Sample.tables, Favorites.Sample.user]

theorem trace_mixed :
    (doubting.trace (push 2) mixed).2.1.toOption.map (fun a => (a.created, a.synced, a.tracks)) = some (3, 5, 1) ∧
    (reports (doubting.trace (push 2) mixed).1).map reportKey
      = [("Wrong", some "year >"), ("Jazz", some "genre = \x22jazz\x22")] ∧
    ((doubting.trace (push 2) mixed).2.2.library.tables.playlistsOf (.integer 1)).map (·.spotifyId)
      = ["full", "void", "created0", "created1", "created2"] := by
  decide +kernel

def view : PlaylistView := ⟨1, "full", 1, "Full", none⟩

-- The library fails when it is asked for the tracks of a label.
def untold : List Exchange :=
  [⟨.session, some session⟩, ⟨.library (.labelsWithoutPlaylist (.integer 1)), .ok []⟩,
    ⟨.session, some session⟩, ⟨.library (.playlists (.integer 1)), .ok [view]⟩,
    ⟨.library (.labelTracks (.integer 1)), .error fault⟩]

theorem mem_untold : ⟨.library (.labelTracks (.integer 1)), .error fault⟩ ∈ untold := by
  simp [untold]

theorem untold_plays : (push 2).Plays untold (.error (.library fault)) :=
  .ask (.ask (.ask (.ask (.ask .fail))))

end Playlist.Sample

open Playlist.Sample in
theorem Surroundings.Runs.push_exact_mixed :
    ∃ es total s' pushes, doubting.Runs (push 2) mixed es (.ok total) s' ∧
      Exact s'.library.tables 1 es total pushes ∧ total.created = 3 ∧ total.synced = 5 ∧ total.tracks = 1 ∧
      (∀ items : Contents, held s'.library.tables 1 (items.replay (answered (called es))) = 1) ∧
      total.failures = Library.sorted ["Wrong", "Jazz"] ∧
      ∃ broken, BrokenOff broken untold (.error (.library fault) : Except Failure Summary) := by
  have h := doubting.runs_trace (push 2) mixed
  have hq := trace_mixed
  generalize doubting.trace (push 2) mixed = r at h hq
  obtain ⟨es, o, s'⟩ := r
  obtain ⟨ho, hreports, hids⟩ := hq
  cases o
  case error => cases ho
  case ok total =>
    have ⟨hcreated, hcounts⟩ := Prod.mk.inj (Option.some.inj ho)
    have ⟨hsynced, htracks⟩ := Prod.mk.inj hcounts
    have ⟨⟨pushes, he⟩, huntold⟩ := h.push_exact (s := mixed) doubting_fair rfl (List.mem_singleton_self _)
      mixed_sound rfl (fun _ => .refl _) fun _ => .refl _
    have ⟨broken, hb, _⟩ := huntold untold_plays mem_untold
    refine ⟨es, total, s', pushes, h, he, hcreated, hsynced, htracks, fun items => ?_, ?_, broken, hb⟩
    case refine_1 =>
      -- No two of the playlists have the same id.
      refine (he.remain ?_ items).symm.trans htracks
      exact hids ▸ by decide
    case refine_2 =>
      have hnames := congrArg (List.map Prod.fst) (he.reports.symm.trans hreports)
      rw [List.map_map] at hnames
      exact he.failures.trans (congrArg Library.sorted hnames)

end LabelPlaylists
