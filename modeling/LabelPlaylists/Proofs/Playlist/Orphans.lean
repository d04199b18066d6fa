import LabelPlaylists.Proofs.Playlist.Sample

namespace LabelPlaylists

open Library (Store Tables)
open Spotify (Call Trouble)

namespace Playlist

theorem creations_eq_nil {calls : List (Call × Except Trouble Json)} (h : ∀ c ∈ calls, ¬c.1.IsCreation) :
    creations calls = [] := by
  refine List.filterMap_eq_nil_iff.mpr fun ⟨c, reply⟩ hc => ?_
  cases c <;> first | rfl | exact (h _ hc trivial).elim

end Playlist

namespace Surroundings.Runs

open Playlist

variable {σ : Type} {S : Surroundings σ} {u : Int} {name : String} {cs : List Creation}
variable {s s' : σ} {es : List Exchange} {workers : Int}
variable {first : List Library.Label → List Library.Label}
variable {arrange : List Library.PlaylistView → List Library.PlaylistView}

-- What a push leaves behind, whether it comes to its end or fails.
structure Accounted (u : Int) (name : String) (cs : List Creation) (a : Scene)
    (calls : List (Call × Except Trouble Json)) (a' : Scene) : Prop where
  recorded : Recorded (cs ++ creations calls) a'.library.tables ∧
    Recorded (cs ++ creations calls) a'.library.saved
  missing  : ∀ c ∈ calls, c.1.IsCreation →
    ∃ l ∈ a.library.tables.labelsWithoutPlaylist (.integer u), c.1 = creationCall name l
  filled   : (∃ c ∈ calls, c.1.IsItems) →
    (∀ c ∈ calls, c.1.IsCreation → (creation? c).isSome) ∧
    ∀ l ∈ a.library.tables.labelsWithoutPlaylist (.integer u),
      ∃ c ∈ creations calls, c.key = (name, nameOf l.name)

theorem pushIn_inv (hf : S.Fair) (hfirst : ∀ ls, (first ls).Perm ls) (hp : Ready u name cs (S.scene s))
    (hfits : (S.scene s).library.tables.Fits) (hi : Identified (creations (called es)))
    {o : Except Failure Summary} (h : S.Runs (pushIn first arrange workers) s es o s') :
    Accounted u name cs (S.scene s) (called es) (S.scene s') := by
  have hls := fun l => hfits.label hp.tables.sound (l := l)
  have hcall : ∀ {labels : List Library.Label} {calls : List (Call × Except Trouble Json)},
      (∀ c ∈ calls, ∃ l ∈ labels, c.1 = creationCall name l) → ¬∃ c ∈ calls, c.1.IsItems := by
    intro labels calls h ⟨c, hc, hi⟩
    have ⟨l, _, he⟩ := h c hc
    rw [he] at hi
    exact hi
  rcases h.bind_inv with ⟨_, _, h₁⟩ | ⟨n, s₁, before, rest, he, h₁, h₂⟩
  case inl =>
    have ⟨labels, hperm, hprovided, _⟩ := h₁.provideIn_inv hfirst hp hls hi
    refine ⟨⟨hprovided.ready.tables, hprovided.ready.saved⟩, fun c hc _ => ?_, fun hitems => ?_⟩
    · have ⟨l, hl, he⟩ := hprovided.calls c hc
      exact ⟨l, hperm.mem_iff.mp hl, he⟩
    · exact (hcall hprovided.calls hitems).elim
  case inr =>
    -- After all labels have got a playlist, none is created any more.
    have hquiet := h₂.forall_mem_called (asks_pushEachIn.bind fun _ =>
      Program.Asks.bind (.ask (.inl trivial) fun _ => .done) fun _ => .done)
    have hrest : ∀ c ∈ called rest, ¬c.1.IsCreation := by
      intro c hc hcr
      have ⟨token, hq⟩ := hquiet c hc
      obtain ⟨c, reply⟩ := c
      cases c <;> first | exact hcr.elim | exact hq.elim id id
    rw [he, called_append] at hi ⊢
    rw [creations_append, creations_eq_nil hrest, List.append_nil] at hi
    have ⟨labels, hperm, hprovided, hdone⟩ := h₁.provideIn_inv hfirst hp hls hi
    have hcreations : creations (called before ++ called rest) = creations (called before) := by
      rw [creations_append, creations_eq_nil hrest, List.append_nil]
    refine ⟨?_, fun c hc hcr => ?_, fun _ => ?_⟩
    case refine_1 =>
      rw [hcreations]
      refine h₂.keeps
        (I := fun s => Recorded _ (S.scene s).library.tables ∧ Recorded _ (S.scene s).library.saved)
        (asks_pushEachIn.bind fun _ => Program.Asks.bind (.ask (.inl trivial) fun _ => .done) fun _ => .done)
        (fun hr h => hf.recorded hr h) ⟨hprovided.ready.tables, hprovided.ready.saved⟩
    case refine_2 =>
      have hc := (List.mem_append.mp hc).resolve_right fun hc => hrest c hc hcr
      have ⟨l, hl, he⟩ := hprovided.calls c hc
      exact ⟨l, hperm.mem_iff.mp hl, he⟩
    case refine_3 =>
      rcases hdone with ⟨_, hcomplete⟩ | ⟨⟨_, ho⟩, _⟩
      case inr => cases ho
      case inl =>
        refine ⟨fun c hc hcr => ?_, fun l hl => ?_⟩
        · exact hcomplete.created c ((List.mem_append.mp hc).resolve_right fun hc => hrest c hc hcr)
        · have hk : (name, nameOf l.name) ∈ (creations (called before)).map Creation.key := by
            rw [hcomplete.keys]
            exact List.mem_map.mpr ⟨l, hperm.mem_iff.mpr hl, rfl⟩
          have ⟨c, hc, hk⟩ := List.mem_map.mp hk
          exact ⟨c, hcreations ▸ hc, hk⟩

-- Without a session a push fails at once.
theorem pushIn_unsigned {o : Except Failure Summary} (hx : (S.scene s).session = none)
    (h : S.Runs (pushIn first arrange workers) s es o s') :
    called es = [] ∧ S.scene s' = S.scene s := by
  have ⟨_, he, h⟩ := h.ask_inv
  have ⟨hr, hs⟩ := Prod.mk.inj (S.session (s := s))
  rw [hr, hx] at he h
  have ⟨hn, _, hs'⟩ := h.fail_inv
  exact ⟨by rw [he, hn]; rfl, hs' ▸ hs⟩

end Surroundings.Runs

open Playlist

theorem Scene.IsSigned.ready {a : Scene} {x : Session} {cs : List Creation} (ha : a.IsSigned)
    (hx : a.session = some x) (h : Recorded cs a.library.tables ∧ Recorded cs a.library.saved) :
    Ready x.userId x.spotifyId cs a where
  session := ⟨x, hx, rfl, rfl⟩
  user    := ha x hx
  tables  := h.left
  saved   := h.right

namespace History

variable {past : List (List Exchange)} {l : Store}

-- All playlists that Spotify has ever created are recorded, in what is saved as well.
theorem recorded (h : History past l) (hi : Identified (creations (called past.flatten))) :
    Recorded (creations (called past.flatten)) l.tables ∧
      Recorded (creations (called past.flatten)) l.saved := by
  induction h
  case create        => exact ⟨.empty, .empty⟩
  case reopen hr     => exact ⟨(hr hi).right, (hr hi).right⟩
  case errand past _ t s es _ s' S _ hf ht h hr =>
    have hes : creations (called es) = [] := by
      refine creations_eq_nil fun c hc hcr => ?_
      have ⟨token, hq⟩ := h.forall_mem_called ht.asks c hc
      obtain ⟨c, reply⟩ := c
      cases c <;> first | exact hcr.elim | exact hq.elim
    rw [List.flatten_concat, called_append, creations_append, hes, List.append_nil] at hi ⊢
    exact h.keeps (I := fun s => Recorded _ (S.scene s).library.tables ∧ Recorded _ (S.scene s).library.saved)
      ht.asks (fun hr h => hf.recorded (.inl hr) h) (hr hi)
  case push past _ first arrange workers s es _ s' S _ hf ha hfits hfirst _ h hr =>
    rw [List.flatten_concat, called_append, creations_append] at hi ⊢
    have ⟨hpast, hes⟩ := identified_append.mp hi
    cases hx : (S.scene s).session
    case none =>
      have ⟨hn, hs⟩ := h.pushIn_unsigned hx
      rw [hn, hs, creations_nil, List.append_nil]
      exact hr hpast
    case some x => exact (h.pushIn_inv hf hfirst (ha.ready hx (hr hpast)) hfits hes).recorded

end History

variable {σ : Type} {S : Surroundings σ} {x : Session} {past : List (List Exchange)} {s s' : σ}
variable {es : List Exchange} {workers : Int} {first : List Library.Label → List Library.Label}
variable {arrange : List Library.PlaylistView → List Library.PlaylistView}

-- After any history, whatever a push comes to, if all created playlists have got an id,
-- 1. every playlist that Spotify has created is recorded under the label it has been created for
-- 2. no label has had two playlists created for it
-- 3. for a label that had a playlist none has been created again
-- 4. items have been sent only if no call to create a playlist has failed and all labels have got one
theorem History.push_recorded (h : History past (S.scene s).library) (hf : S.Fair)
    (hx : (S.scene s).session = some x) (ha : (S.scene s).IsSigned)
    (hfits : (S.scene s).library.tables.Fits) (hfirst : ∀ ls, (first ls).Perm ls)
    {o : Except Failure Summary} (hr : S.Runs (pushIn first arrange workers) s es o s')
    (hi : Identified (creations (called (past.flatten ++ es)))) :
    (∀ c ∈ creations (called (past.flatten ++ es)), ∃ p ∈ (S.scene s').library.tables.playlists,
      Records (S.scene s').library.tables c p) ∧
    ((creations (called (past.flatten ++ es))).map Creation.key).Nodup ∧
    (∀ l ∈ (S.scene s).library.tables.labels,
      l.id ∈ (S.scene s).library.tables.playlists.map (·.labelId) →
      ∀ v ∈ (S.scene s).library.tables.users, v.id = l.userId → ∀ c ∈ called es,
        ∀ isPublic description, c.1 ≠ .createPlaylist v.spotifyId (nameOf l.name) isPublic description) ∧
    ((∃ c ∈ called es, c.1.IsItems) →
      (∀ c ∈ called es, c.1.IsCreation → (creation? c).isSome) ∧
      ∀ l ∈ (S.scene s).library.tables.labelsWithoutPlaylist (.integer x.userId),
        ∃ c ∈ creations (called es), c.key = (x.spotifyId, nameOf l.name)) := by
  rw [called_append, creations_append] at hi ⊢
  have ⟨hpast, hes⟩ := identified_append.mp hi
  have hp := ha.ready hx (h.recorded hpast)
  have hacc := hr.pushIn_inv hf hfirst hp hfits hes
  refine ⟨fun c hc => hacc.recorded.left.exists_row hc, hacc.recorded.left.nodup_keys, ?_, hacc.filled⟩
  intro l hl hm v hv hvu c hc isPublic description he
  have ⟨l', hl', he'⟩ := hacc.missing c hc (he ▸ trivial)
  have ⟨hl', hlu, hn⟩ := Tables.mem_labelsWithoutPlaylist.mp hl'
  have ⟨hown, hname⟩ : v.spotifyId = x.spotifyId ∧ nameOf l.name = nameOf l'.name := by
    have := he.symm.trans he'
    simp only [creationCall, Spotify.Call.createPlaylist.injEq] at this
    exact ⟨this.left, this.right.left⟩
  -- The user and the name tell the label, which would be both with and without a playlist.
  have hsound := hp.tables.sound
  have ⟨w, hw, hk⟩ := List.mem_map.mp hp.user
  have hvw : v = w := List.inj_on_of_nodup_map hsound.userNames hv hw (by rw [hown, (Prod.mk.inj hk).right])
  have hll : l = l' := by
    refine List.inj_on_of_nodup_map hsound.labelNames hl hl' ?_
    simp only [Prod.mk.injEq]
    exact ⟨by rw [← hvu, hlu, hvw, (Prod.mk.inj hk).left], nameOf_injective hname⟩
  exact hn (hll ▸ hm)

open Playlist.Sample in
-- Of two labels the second one gets its playlist in the push after the one that has failed for it.
theorem History.push_recorded_again :
    ∃ es o w', Simulation.World.surroundings.Runs (Playlist.push 2) answering es o w' ∧
      creations (called before.flatten) = [⟨"alice", nameOf "Good", some "playlist1"⟩] ∧
      creations (called es) = [⟨"alice", nameOf "Bad", some "playlist2"⟩] ∧
      (∀ c ∈ creations (called (before.flatten ++ es)), ∃ p ∈ w'.library.tables.playlists,
        Records w'.library.tables c p) ∧
      ((creations (called (before.flatten ++ es))).map Creation.key).Nodup := by
  have hr := Simulation.World.surroundings.runs_trace (Playlist.push 2) answering
  have hi : Identified (creations (called (before.flatten
      ++ (Simulation.World.surroundings.trace (Playlist.push 2) answering).1))) := by
    rw [called_append, creations_append, creations_before, creations_answering]
    exact List.forall_mem_cons.mpr ⟨nofun, List.forall_mem_singleton.mpr nofun⟩
  have hp : History before (Simulation.World.surroundings.scene answering).library := by
    rw [Simulation.World.library_scene]
    exact history_answering
  have ⟨h, hn, _⟩ := History.push_recorded hp Simulation.World.fair answering_stands.left
    answering_stands.isSigned answering_stands.fits (fun _ => .refl _) hr hi
  rw [Simulation.World.library_scene] at h
  exact ⟨_, _, _, hr, creations_before, creations_answering, h, hn⟩

end LabelPlaylists
