import LabelPlaylists.Proofs.Playlist.Content
import LabelPlaylists.Proofs.Playlist.Resolution

namespace LabelPlaylists

open Library (Label PlaylistView Tables)
open Spotify (Call Trouble)

-- A call is for the items of a playlist.
def Spotify.Call.Concerns (c : Call) (playlist : String) : Prop := c.items?.map Prod.fst = some playlist

instance {c : Call} {playlist : String} : Decidable (c.Concerns playlist) := inferInstanceAs (Decidable (_ = _))

theorem Spotify.Call.Concerns.isItems {c : Call} {playlist : String} (h : c.Concerns playlist) : c.IsItems := by
  cases c <;> trivial

namespace Playlist

-- The calls for the items of playlists that have been answered.
def answered (calls : List (Call × Except Trouble Json)) : List Call :=
  (calls.filter fun c => (heard .snapshot c.2).isSome).map Prod.fst

-- Those that have failed.
def failed (calls : List (Call × Except Trouble Json)) : List (Call × Except Trouble Json) :=
  calls.filter fun c => (heard .snapshot c.2).isNone

-- The calls for the items of a playlist in the course of a run.
def requests (es : List Exchange) (playlist : String) : List (Call × Except Trouble Json) :=
  (called es).filter (·.1.Concerns playlist)

-- Calls are made one after the other until one fails.
inductive Attempted : List Call → List (Call × Except Trouble Json) → Except Failure Unit → Prop
  | done : Attempted [] [] (.ok ())
  | next {c reply calls made a o} :
    told .snapshot reply = .ok a → Attempted calls made o → Attempted (c :: calls) ((c, reply) :: made) o
  | stopped {c reply calls e} : told .snapshot reply = .error e → Attempted (c :: calls) [(c, reply)] (.error e)

-- A playlist is listed with its label.
structure Shows (v : PlaylistView) (l : Label) : Prop where
  id       : v.labelId = l.id
  name     : v.labelName = l.name
  criteria : v.criteria = l.criteria

-- No items are changed but those of the given playlists, and no call is empty or carries too much.
def FillsOnly (vs : List PlaylistView) (es : List Exchange) : Prop :=
  ∀ c ∈ called es, ∀ i ∈ c.1.items?, i.1 ∈ vs.map (·.spotifyId) ∧ 1 ≤ i.2.length ∧ i.2.length ≤ 50

-- A playlist has been worked on: the tracks of its label have been found, and it has been attempted to fill it with
-- them.
def Tried (t : Tables) (u : Int) (es : List Exchange) (v : PlaylistView) (found : Except Failure (Nat × Bool)) :
    Prop :=
  ∃ l ∈ t.labels, l.userId = u ∧ Shows v l ∧ ∃ r o, Resolves t l es r ∧
    Attempted (filling v.spotifyId r.1) (requests es v.spotifyId) o ∧ found = o.map fun _ => (r.1.length, r.2)

variable {r r' : Contents} {playlist : String} {tracks : List String} {calls more : List Call} {c : Call}
variable {made made' : List (Call × Except Trouble Json)} {es es' : List Exchange} {o : Except Failure Unit}

@[simp]
theorem answered_append : answered (made ++ made') = answered made ++ answered made' := by
  simp [answered]

@[simp]
theorem requests_append : requests (es ++ es') playlist = requests es playlist ++ requests es' playlist := by
  simp [requests]

theorem answered_cons {reply : Except Trouble Json} {a : Spotify.Snapshot} (h : told .snapshot reply = .ok a) :
    answered ((c, reply) :: made) = c :: answered made := by
  have hs : heard .snapshot reply = some a := toOption_told.symm.trans (congrArg Except.toOption h)
  simp [answered, hs]

theorem failed_cons {reply : Except Trouble Json} {a : Spotify.Snapshot} (h : told .snapshot reply = .ok a) :
    failed ((c, reply) :: made) = failed made := by
  have hs : heard .snapshot reply = some a := toOption_told.symm.trans (congrArg Except.toOption h)
  simp [failed, hs]

theorem failed_singleton {reply : Except Trouble Json} {e : Failure} (h : told .snapshot reply = .error e) :
    answered [(c, reply)] = [] ∧ failed [(c, reply)] = [(c, reply)] := by
  have hs : heard .snapshot reply = none := toOption_told.symm.trans (congrArg Except.toOption h)
  simp [answered, failed, hs]

namespace Attempted

-- What is attempted in two parts is attempted in the first and, if all goes well, in the second.
theorem append {calls made} : Attempted calls made (.ok ()) → Attempted more made' o →
    Attempted (calls ++ more) (made ++ made') o
  | .done, h'      => h'
  | .next ha h, h' => .next ha (h.append h')

theorem stop {calls made} {e : Failure} : Attempted calls made (.error e) →
    Attempted (calls ++ more) made (.error e)
  | .next ha h  => .next ha h.stop
  | .stopped he => .stopped he

theorem mem {calls made o} : Attempted calls made o → ∀ c ∈ made, c.1 ∈ calls
  | .done      => List.forall_mem_nil _
  | .next _ h  => List.forall_mem_cons.mpr ⟨List.mem_cons_self, fun c hc => List.mem_cons_of_mem _ (h.mem c hc)⟩
  | .stopped _ => List.forall_mem_singleton.mpr List.mem_cons_self

theorem map_fst {calls made} : Attempted calls made (.ok ()) → made.map Prod.fst = calls
  | .done      => rfl
  | .next _ h  => congrArg _ h.map_fst

theorem ok_inv {calls made} : Attempted calls made (.ok ()) → answered made = calls ∧ failed made = []
  | .done      => ⟨rfl, rfl⟩
  | .next ha h => by
    rw [answered_cons ha, failed_cons ha]
    exact h.ok_inv.imp_left (congrArg _)

-- The call that has failed is the only one, and all before it have been answered.
theorem error_inv {calls made} {e : Failure} : Attempted calls made (.error e) →
    ∃ c rest reply, calls = answered made ++ c :: rest ∧ failed made = [(c, reply)] ∧
      told .snapshot reply = .error e
  | .next ha h => by
    have ⟨c, rest, reply, hc, hf, he⟩ := h.error_inv
    rw [answered_cons ha, failed_cons ha]
    exact ⟨c, rest, reply, congrArg _ hc, hf, he⟩
  | @stopped c reply rest _ he =>
    have ⟨ha, hf⟩ := failed_singleton (c := c) he
    ⟨c, rest, reply, by rw [ha]; rfl, hf, he⟩

theorem ok_of_heard (h : Attempted calls made o) (hh : ∀ c ∈ made, (heard .snapshot c.2).isSome) : o = .ok () := by
  cases o
  case ok => rfl
  case error =>
    have ⟨c, _, reply, _, hf, _⟩ := h.error_inv
    have ⟨hm, hn⟩ := List.mem_filter.mp (hf ▸ List.mem_singleton_self (c, reply) : (c, reply) ∈ failed made)
    have hs := hh _ hm
    rw [Option.isNone_iff_eq_none.mp hn] at hs
    cases hs

end Attempted

namespace Contents

-- What a call leaves in a playlist depends on nothing but what has been in it.
theorem after_congr (h : r playlist = r' playlist) : r.after c playlist = r'.after c playlist := by
  cases c
  case replaceItems p _ | addItems p _ | removeItems p _ =>
    by_cases hp : playlist = p
    case pos => simp [after, hp ▸ h, hp]
    case neg => simp [after, Function.update_of_ne hp, h]
  all_goals exact h

theorem replay_congr (h : r playlist = r' playlist) : r.replay calls playlist = r'.replay calls playlist := by
  induction calls generalizing r r'
  case nil            => exact h
  case cons c rest hr => exact hr (after_congr h)

-- Only the calls for a playlist matter to what is in it.
theorem replay_filter : r.replay (calls.filter (·.Concerns playlist)) playlist = r.replay calls playlist := by
  induction calls generalizing r
  case nil => rfl
  case cons c rest hr =>
    by_cases hc : c.Concerns playlist
    case pos => rw [List.filter_cons_of_pos (by simpa using hc), replay_cons, replay_cons, hr]
    case neg =>
      rw [List.filter_cons_of_neg (by simpa using hc), replay_cons, hr]
      refine replay_congr (after_of_ne fun i hi he => hc ?_).symm
      rw [Spotify.Call.Concerns, hi, Option.map_some, he]

theorem replay_requests :
    r.replay (answered (requests es playlist)) playlist = r.replay (answered (called es)) playlist := by
  have hc : answered (requests es playlist) = (answered (called es)).filter (·.Concerns playlist) := by
    simp only [answered, requests, List.filter_map, List.filter_filter, Bool.and_comm, Function.comp_def]
  rw [hc, replay_filter]

end Contents

-- Where a playlist stands when one of the calls by which it is filled has failed.
def Halfway (tracks before now : List String) : Call → Prop
  -- It has not been touched.
  | .replaceItems .. => now = before
  -- It holds the pieces that have been sent by then.
  | .addItems _ uris =>
    ∃ done rest, pieces moreItems (tracks.map trackUri) = done ++ uris :: rest ∧ done ≠ [] ∧ now = done.flatten
  -- It holds the placeholder alone.
  | .removeItems ..  => tracks = [] ∧ now = [trackUri placeholderTrack]
  | _                => False

-- Whichever call fails, the calls before it have left the playlist in one of three states.
theorem halfway_filling {done rest : List Call} (h : filling playlist tracks = done ++ c :: rest) :
    Halfway tracks (r playlist) (r.replay done playlist) c := by
  cases tracks
  case nil =>
    rw [filling_nil] at h
    rcases done with _ | ⟨_, _ | _⟩
    case nil => cases h; rfl
    case cons.nil =>
      cases h
      exact ⟨rfl, by simp [Contents.after]⟩
    case cons.cons => simp at h
  case cons t tracks =>
    obtain ⟨first, parts, hp, hf⟩ := filling_cons playlist t tracks
    rw [hf] at h
    cases done
    case nil => cases h; rfl
    case cons _ done =>
      obtain ⟨hd, h⟩ := List.cons_eq_cons.mp h
      obtain ⟨ps, qs, hpq, hps, hqs⟩ := List.map_eq_append_iff.mp h
      obtain ⟨q, qs', hq, hc, -⟩ := List.map_eq_cons_iff.mp hqs
      subst hd hps hc hq hpq
      refine ⟨first :: ps, qs', hp, List.cons_ne_nil _ _, ?_⟩
      rw [Contents.replay_cons, Contents.replay_additions]
      simp [Contents.after]

-- All calls that fill a playlist are for it.
theorem Attempted.requests_eq (h : Attempted (filling playlist tracks) (called es) o) :
    requests es playlist = called es := by
  refine List.filter_eq_self.mpr fun c hc => decide_eq_true ?_
  have ⟨_, hi, _⟩ := items_filling (h.mem c hc)
  rw [Spotify.Call.Concerns, hi, Option.map_some]

section

variable {t : Tables} {u : Int} {vs rest : List PlaylistView} {v : PlaylistView} {es more : List Exchange}
variable {found : Except Failure (Nat × Bool)}

theorem FillsOnly.mono (h : FillsOnly vs es) (hs : vs ⊆ rest) : FillsOnly rest es :=
  fun c hc i hi => (h c hc i hi).imp_left (List.map_subset _ hs ·)

theorem FillsOnly.of_called (h : called es = []) : FillsOnly vs es := by
  unfold FillsOnly
  rw [h]
  exact List.forall_mem_nil _

theorem FillsOnly.append (h : FillsOnly vs es) (h' : FillsOnly vs more) : FillsOnly vs (es ++ more) := by
  unfold FillsOnly
  rw [called_append]
  exact List.forall_mem_append.mpr ⟨h, h'⟩

theorem FillsOnly.requests (h : FillsOnly vs es) (hp : playlist ∉ vs.map (·.spotifyId)) :
    requests es playlist = [] := by
  refine List.filter_eq_nil_iff.mpr fun c hc hk => hp ?_
  have ⟨i, hi, he⟩ := Option.map_eq_some_iff.mp (of_decide_eq_true hk)
  exact he ▸ (h c hc i hi).left

-- What has been attempted stays so while others are worked on.
theorem Tried.before (h : Tried t u es v found) (hm : FillsOnly vs more)
    (hv : v.spotifyId ∉ vs.map (·.spotifyId)) : Tried t u (es ++ more) v found := by
  have ⟨l, hl, hu, hs, r, o, hr, ha, hf⟩ := h
  refine ⟨l, hl, hu, hs, r, o, hr.mono (List.subset_append_left _ _), ?_, hf⟩
  rwa [requests_append, hm.requests hv, List.append_nil]

theorem Tried.after (h : Tried t u more v found) (hm : FillsOnly vs es)
    (hv : v.spotifyId ∉ vs.map (·.spotifyId)) : Tried t u (es ++ more) v found := by
  have ⟨l, hl, hu, hs, r, o, hr, ha, hf⟩ := h
  refine ⟨l, hl, hu, hs, r, o, hr.mono (List.subset_append_right _ _), ?_, hf⟩
  rwa [requests_append, hm.requests hv, List.nil_append]

end

end Playlist

namespace Surroundings.Runs

open Account (Service.call Service.debug)
open Playlist

variable {σ : Type} {S : Surroundings σ} {s s' : σ} {es : List Exchange} {u : Int} {t : Tables} {l : Label}
variable {v : PlaylistView} {playlist : String} {tracks : List String}

-- The items of a playlist are to be changed, and the program goes on if the call is answered.
theorem change_bind_inv {c : Call} {calls : List Call} {message : String} {f : Spotify.Snapshot → Program Unit}
    {o : Except Failure Unit} (hs : S.Renews fun _ => True) (hu : Datum.IsStorable u)
    (hf : Filling u t (S.scene s))
    (h : S.Runs ((Service.debug message >>= fun _ => Service.call c .snapshot) >>= f) s es o s')
    (hrest : ∀ {a s₁ rest}, Filling u t (S.scene s₁) → S.Runs (f a) s₁ rest o s' →
      Attempted calls (called rest) o ∧ Filling u t (S.scene s')) :
    Attempted (c :: calls) (called es) o ∧ Filling u t (S.scene s') := by
  rcases h.bind_inv with ⟨e, rfl, h₁⟩ | ⟨a, s₂, before, rest, he, h₁, h⟩ <;>
    have ⟨_, more, s₁, he₁, hs₁, h₂⟩ := h₁.log_bind_inv <;>
    rw [← hs₁] at hf <;>
    have ⟨_, _, _, hc, ht⟩ := h₂.call_told hs (fun _ _ _ => trivial) hu hf.serves <;>
    replace hf := Preserves.call filling_lasting _ _ _ _ h₂ hf
  case inl =>
    rw [he₁, called_cons, hc]
    exact ⟨.stopped ht.symm, hf⟩
  case inr =>
    have ⟨hmade, hf⟩ := hrest hf h
    rw [he, he₁, called_append, called_cons, hc]
    exact ⟨.next ht.symm hmade, hf⟩

theorem addPieces_inv {parts : List (List String)} {o : Except Failure Unit} (hs : S.Renews fun _ => True)
    (hu : Datum.IsStorable u) (hf : Filling u t (S.scene s))
    (h : S.Runs (addPieces playlist parts) s es o s') :
    Attempted (parts.map (.addItems playlist)) (called es) o ∧ Filling u t (S.scene s') := by
  induction parts generalizing s es
  case nil =>
    have ⟨he, ho, hs'⟩ := h.done_inv
    subst he ho hs'
    exact ⟨.done, hf⟩
  case cons part rest hr => exact h.change_bind_inv hs hu hf hr

-- A playlist is filled by the calls that are to fill it, up to the first that fails.
theorem fill_inv {o : Except Failure Unit} (hs : S.Renews fun _ => True) (hu : Datum.IsStorable u)
    (hf : Filling u t (S.scene s)) (h : S.Runs (fill playlist tracks) s es o s') :
    Attempted (filling playlist tracks) (called es) o ∧ Filling u t (S.scene s') := by
  unfold fill at h
  unfold filling
  dsimp only at h ⊢
  generalize pieces moreItems _ = parts at h ⊢
  cases parts
  case nil =>
    have ⟨he, ho, hs'⟩ := h.done_inv
    subst he ho hs'
    exact ⟨.done, hf⟩
  case cons first parts =>
    refine h.change_bind_inv hs hu hf fun hf h => ?_
    rcases h.bind_inv with ⟨e, rfl, h₁⟩ | ⟨_, _, _, rest, he₁, h₁, h⟩ <;>
      have ⟨hparts, hf⟩ := h₁.addPieces_inv hs hu hf
    case inl => exact ⟨hparts.stop, hf⟩
    case inr =>
      rw [he₁, called_append]
      refine And.imp_left hparts.append ?_
      split at h
      case isFalse hn =>
        have ⟨he, ho, hs'⟩ := h.done_inv
        subst he ho hs'
        exact ⟨if_neg hn ▸ .done, hf⟩
      case isTrue hn =>
        rw [if_pos hn]
        refine h.change_bind_inv hs hu hf fun hf h => ?_
        have ⟨he, ho, hs'⟩ := h.done_inv
        subst he ho hs'
        exact ⟨.done, hf⟩

theorem pushOne_inv {o : Except Failure (Nat × Bool)} (hs : S.Renews fun _ => True) (hf : S.Fair)
    (hu : Datum.IsStorable u) (hlt : l ∈ t.labels) (hlu : l.userId = u) (hl : Datum.IsStorable l.id)
    (hv : Shows v l) (hp : Filling u t (S.scene s)) (h : S.Runs (pushOne v) s es o s') :
    Filling u t (S.scene s') ∧ FillsOnly [v] es ∧ Tried t u es v o := by
  subst hlu
  unfold pushOne at h
  rw [hv.id, hv.name, hv.criteria] at h
  rcases h.bind_inv with ⟨_, _, h₁⟩ | ⟨r, s₁, before, rest, he, h₁, h⟩ <;>
    obtain ⟨hc₁, hs₁, _, ho₁, hr⟩ := h₁.resolve_inv hf hu hl hp <;> cases ho₁
  rw [← hs₁] at hp
  -- Whether or not all calls are answered, they are for this playlist.
  suffices hmade : ∃ o', Attempted (filling v.spotifyId r.1) (called es) o' ∧ Filling l.userId t (S.scene s') ∧
      o = o'.map fun _ => (r.1.length, r.2) by
    have ⟨o', ha, hp, ho⟩ := hmade
    refine ⟨hp, fun c hc i hi => ?_, l, hlt, rfl, hv, r, o', ?_, ha.requests_eq.symm ▸ ha, ho⟩
    · have ⟨uris, hk, hlen⟩ := items_filling (ha.mem c hc)
      cases hk.symm.trans hi
      exact ⟨List.mem_singleton_self _, hlen⟩
    · exact hr.mono (he ▸ List.subset_append_left _ _)
  rw [he, called_append, hc₁, List.nil_append]
  rcases h.bind_inv with ⟨e, ho, h₂⟩ | ⟨_, s₂, before', rest', he', h₂, h⟩ <;>
    have ⟨ha, hp⟩ := h₂.fill_inv hs hu hp
  case inl => exact ⟨_, ha, hp, ho⟩
  case inr =>
    have ⟨_, _, s₃, he₃, hs₃, h⟩ := h.log_bind_inv
    have ⟨hn, ho, hs'⟩ := h.done_inv
    refine ⟨.ok (), ?_, by rwa [hs', hs₃], ho⟩
    rw [he', he₃, hn, called_append]
    exact (List.append_nil (called before')).symm ▸ ha

end Surroundings.Runs

namespace Surroundings

open Playlist

variable {σ : Type} {S : Surroundings σ} {s s' : σ} {es : List Exchange} {u : Int} {t : Tables}
variable {vs : List PlaylistView} {workers : Int} {arrange : List PlaylistView → List PlaylistView}

-- Playlists are worked on in turn, and one that cannot be filled leaves the others alone.
theorem Each.tries {found : List (PlaylistView × Except Failure (Nat × Bool))} (hs : S.Renews fun _ => True)
    (hf : S.Fair) (hu : Datum.IsStorable u) (hls : ∀ l ∈ t.labels, Datum.IsStorable l.id)
    (hv : ∀ v ∈ vs, ∃ l ∈ t.labels, l.userId = u ∧ Shows v l) (hn : (vs.map (·.spotifyId)).Nodup)
    (hp : Filling u t (S.scene s)) (h : S.Each pushOne vs s es found s') :
    Filling u t (S.scene s') ∧ FillsOnly vs es ∧ found.map Prod.fst = vs ∧ ∀ r ∈ found, Tried t u es r.1 r.2 := by
  induction h
  case nil => exact ⟨hp, List.forall_mem_nil _, rfl, List.forall_mem_nil _⟩
  case cons v rest s es o s₁ more found s₂ h₁ h₂ hr =>
    have ⟨⟨l, hl, hlu, hvl⟩, hv⟩ := List.forall_mem_cons.mp hv
    have ⟨hnv, hn⟩ := List.nodup_cons.mp hn
    have ⟨hp, honly, ha⟩ := h₁.pushOne_inv hs hf hu hl hlu (hls l hl) hvl hp
    have ⟨hp, hmore, hfst, hfound⟩ := hr hv hn hp
    refine ⟨hp, ?_, congrArg (v :: ·) hfst, List.forall_mem_cons.mpr ⟨ha.before hmore hnv, fun r hr => ?_⟩⟩
    · exact (honly.mono fun w hw => List.mem_singleton.mp hw ▸ List.mem_cons_self).append
        (hmore.mono (List.subset_cons_self v rest))
    · refine (hfound r hr).after honly fun hm => hnv ?_
      rw [← List.mem_singleton.mp hm, ← hfst]
      exact List.mem_map_of_mem (List.mem_map_of_mem hr)

-- All listed playlists of the user are worked on. The push fails if one of them cannot be filled.
theorem Runs.pushEachIn_inv {o : Except Failure (List (PlaylistView × Nat × Bool))} (hs : S.Renews fun _ => True)
    (hf : S.Fair) (hu : Datum.IsStorable u) (hls : ∀ l ∈ t.labels, Datum.IsStorable l.id)
    (hv : ∀ v ∈ t.playlistsOf (.integer u), ∃ l ∈ t.labels, l.userId = u ∧ Shows v l)
    (hn : ((t.playlistsOf (.integer u)).map (·.spotifyId)).Nodup) (hw : 1 ≤ workers)
    (ha : ∀ ps, (arrange ps).Perm ps) (hp : Filling u t (S.scene s))
    (h : S.Runs (pushEachIn arrange workers) s es o s') :
    Filling u t (S.scene s') ∧ FillsOnly (t.playlistsOf (.integer u)) es ∧
      ∃ found : List (PlaylistView × Except Failure (Nat × Bool)),
        (found.map Prod.fst).Perm (t.playlistsOf (.integer u)) ∧ (∀ r ∈ found, Tried t u es r.1 r.2) ∧
          ((∃ results, o = .ok results ∧ found = results.map fun r => (r.1, .ok r.2)) ∨
            ∃ v e, o = .error e ∧ (v, .error e) ∈ found) := by
  have ⟨x, hx, hxu⟩ := hp.session
  have ⟨_, s₁, he₁, hs₁, h⟩ := h.session_bind_inv hx
  rw [hxu] at h
  rcases (S.scene s₁).library.perform_asking (c := .playlists (.integer u)) rfl with ⟨_, hq⟩ | ⟨hnu, _⟩
  case inr => exact absurd hu hnu
  rcases h.bind_inv with ⟨_, _, h₂⟩ | ⟨_, s₂, before, rest, he₂, h₂, h⟩ <;>
    have ⟨ho₂, hs₂⟩ := h₂.library_ok_inv (by nofun) hq <;> cases ho₂
  have hs₂ : S.scene s₂ = S.scene s := hs₂.trans hs₁
  rw [hs₁, hp.matched.playlistsOf hp.playlists] at h
  rw [← hs₂] at hp
  have hperm := ha (t.playlistsOf (.integer u))
  rcases h.inParallel_inv with ⟨hw', _⟩ | ⟨found, s₃, es₃, es₄, h₃, he₃, hc₃, hs₃, hor⟩
  case inl => omega
  have ⟨hp, honly, hfst, hfound⟩ := h₃.tries hs hf hu hls (fun v hm => hv v (hperm.mem_iff.mp hm))
    ((hperm.map _).nodup_iff.mpr hn) hp
  -- What is exchanged before and after does not change any items.
  have ⟨he₂', _, _⟩ := h₂.library_inv (by nofun)
  have he : es = (⟨.session, some x⟩ :: before) ++ (es₃ ++ es₄) := by rw [he₁, he₂, he₃, List.cons_append]
  have hpre : FillsOnly [] (⟨.session, some x⟩ :: before) := .of_called (by rw [he₂']; rfl)
  have hpost : FillsOnly [] es₄ := .of_called hc₃
  rw [← hs₃] at hp
  rw [he]
  refine ⟨hp, ?_, found, hfst ▸ hperm, fun r hr => ?_, hor⟩
  · exact (hpre.mono (List.nil_subset _)).append ((honly.mono hperm.subset).append (hpost.mono (List.nil_subset _)))
  · exact ((hfound r hr).before hpost List.not_mem_nil).after hpre List.not_mem_nil

end Surroundings

end LabelPlaylists
