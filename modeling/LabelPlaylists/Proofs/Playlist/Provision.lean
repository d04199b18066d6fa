import LabelPlaylists.Proofs.Playlist.Creation
import LabelPlaylists.Proofs.Program.Parallel

namespace LabelPlaylists

namespace Playlist

open Library (Label Tables)
open Spotify (Call Schema Trouble)

-- A user of the library is in session, and the playlists that Spotify has created are recorded, in what is
-- saved as well.
structure Ready (u : Int) (name : String) (cs : List Creation) (a : Scene) : Prop where
  session : ∃ x, a.session = some x ∧ x.userId = u ∧ x.spotifyId = name
  user    : (u, name) ∈ a.library.tables.users.map fun v => (v.id, v.spotifyId)
  tables  : Recorded cs a.library.tables
  saved   : Recorded cs a.library.saved

variable {σ : Type} {S : Surroundings σ} {u : Int} {name : String} {cs : List Creation}
variable {s s' : σ} {es : List Exchange} {l : Label} {labels : List Label} {workers : Int}

theorem ready_lasting : S.Lasting (Ready u name cs) where
  rests := by
    intro s s' hr h
    rcases hr with hs | ⟨x, g, m, hx, _, _, _, t, _, ht, hs⟩ <;> rw [hs]
    case inl => exact h
    case inr =>
      have ⟨y, hy, hu, hn⟩ := h.session
      cases hx.symm.trans hy
      have ht' : Recorded cs t :=
        h.tables.effect (fun _ _ _ h => by cases h) (Library.Command.Effect.of_setTokens (m := m) ht)
      exact ⟨⟨_, rfl, hu, hn⟩, (Tables.Matches.of_setTokens ht).left.users ▸ h.user, ht', ht'⟩
  call  := fun _ h => ⟨h.session, h.user, h.tables, h.saved⟩

-- The tables differ from given ones in nothing but tokens.
theorem matches_lasting {t : Tables} : S.Lasting fun a =>
    t.Matches a.library.tables ∧ a.library.tables.playlists = t.playlists where
  rests := by
    intro s s' hr ⟨h, hp⟩
    rcases hr with hs | ⟨x, g, m, hx, _, _, _, t, _, ht, hs⟩ <;> rw [hs]
    case inl => exact ⟨h, hp⟩
    case inr =>
      have ⟨ht, hp'⟩ := Tables.Matches.of_setTokens ht
      exact ⟨h.trans ht, hp'.trans hp⟩
  call  := fun _ h => h

-- The call that creates the playlist of a label for its user.
def creationCall (owner : String) (l : Label) : Call :=
  .createPlaylist owner (nameOf l.name) false (descriptionOf l.name)

-- The call that is to create the playlist of a label fails, or there is no valid token for it.
def Refused (S : Surroundings σ) (u : Int) (name : String) (l : Label) : Prop :=
  ∃ cs s es e s', Ready u name cs (S.scene s) ∧
    S.Runs (Account.Service.call (creationCall name l) .createdPlaylist) s es (.error e) s'

-- All playlists that are created have got an id.
def Identified (cs : List Creation) : Prop := ∀ c ∈ cs, c.id ≠ none

theorem identified_append {cs' : List Creation} : Identified (cs ++ cs') ↔ Identified cs ∧ Identified cs' :=
  List.forall_mem_append

-- Playlists have been created for some of the given labels and are recorded.
structure Provided (u : Int) (name : String) (cs : List Creation) (labels : List Label) (a : Scene)
    (calls : List (Call × Except Trouble Json)) (a' : Scene) : Prop where
  ready   : Ready u name (cs ++ creations calls) a'
  matched : a.library.tables.Matches a'.library.tables
  calls   : ∀ c ∈ calls, ∃ l ∈ labels, c.1 = creationCall name l

-- Playlists have been created for all of the given labels.
structure Complete (name : String) (labels : List Label) (a : Scene)
    (calls : List (Call × Except Trouble Json)) (a' : Scene) : Prop where
  created : ∀ c ∈ calls, (creation? c).isSome
  keys    : (creations calls).map Creation.key = labels.map fun l => (name, nameOf l.name)
  rows    : a'.library.tables.playlists.map (·.labelId)
    = a.library.tables.playlists.map (·.labelId) ++ labels.map (·.id)

variable {a a' a'' : Scene} {calls more : List (Call × Except Trouble Json)} {others : List Label}

theorem Provided.nil (h : Ready u name cs a) : Provided u name cs labels a [] a where
  ready   := (List.append_nil cs).symm ▸ h
  matched := .refl
  calls   := List.forall_mem_nil _

theorem Complete.nil : Complete name [] a [] a where
  created := List.forall_mem_nil _
  keys    := rfl
  rows    := (List.append_nil _).symm

theorem Provided.append (h : Provided u name cs labels a calls a')
    (h' : Provided u name (cs ++ creations calls) others a' more a'') :
    Provided u name cs (labels ++ others) a (calls ++ more) a'' where
  ready   := by
    rw [creations_append, ← List.append_assoc]
    exact h'.ready
  matched := h.matched.trans h'.matched
  calls   := by
    intro c hc
    rcases List.mem_append.mp hc with hc | hc
    case inl =>
      have ⟨l, hl, he⟩ := h.calls c hc
      exact ⟨l, List.mem_append_left _ hl, he⟩
    case inr =>
      have ⟨l, hl, he⟩ := h'.calls c hc
      exact ⟨l, List.mem_append_right _ hl, he⟩

theorem Complete.append (h : Complete name labels a calls a') (h' : Complete name others a' more a'') :
    Complete name (labels ++ others) a (calls ++ more) a'' where
  created := List.forall_mem_append.mpr ⟨h.created, h'.created⟩
  keys    := by rw [creations_append, List.map_append, List.map_append, h.keys, h'.keys]
  rows    := by rw [h'.rows, h.rows, List.map_append, List.append_assoc]

end Playlist

namespace Surroundings.Runs

open Account (Service.call Service.createPlaylist)
open Playlist

variable {σ : Type} {S : Surroundings σ} {u : Int} {name : String} {cs : List Creation}
variable {s s' : σ} {es : List Exchange} {l : Library.Label} {labels : List Library.Label} {workers : Int}

-- A call that is to create a playlist creates it or fails.
theorem call_creates {o : Except Failure Spotify.CreatedPlaylist} (hi : Identified (creations (called es)))
    (h : S.Runs (Service.call (creationCall name l) .createdPlaylist) s es o s') :
    (∀ c ∈ called es, c.1 = creationCall name l) ∧
      ((creations (called es) = [] ∧ ∃ e, o = .error e) ∨
        ∃ a, o = .ok a ∧ creations (called es) = [⟨name, nameOf l.name, some a.id⟩] ∧
          ∀ c ∈ called es, (creation? c).isSome) := by
  rcases h.call_inv with ⟨_, hn, e, ho⟩ | ⟨token, s₁, _, _, hc, _, ho⟩
  case inl => exact ⟨hn ▸ List.forall_mem_nil _, .inl ⟨by rw [hn]; rfl, e, ho⟩⟩
  case inr =>
    replace ho := (congrArg Except.toOption ho).trans toOption_told
    rw [creations, hc] at hi
    rw [creations, hc]
    refine ⟨List.forall_mem_singleton.mpr rfl, ?_⟩
    cases hr : (S.answer (.call token (creationCall name l)) s₁).1 <;> rw [hr] at ho hi
    case error =>
      cases o
      case error e => exact .inl ⟨rfl, e, rfl⟩
      case ok      => cases ho
    case ok body =>
      have hk : creation? (creationCall name l, .ok body)
          = some ⟨name, nameOf l.name, o.toOption.map (·.id)⟩ := by rw [ho]; rfl
      simp only [List.filterMap_cons, List.filterMap_nil, hk] at hi ⊢
      cases o
      case error => exact absurd rfl (hi _ List.mem_cons_self)
      case ok a  => exact .inr ⟨a, rfl, rfl, List.forall_mem_singleton.mpr (by rw [hk]; rfl)⟩

-- The call is made for the user in session, and nothing but tokens changes in the tables.
theorem createPlaylist_inv {o : Except Failure Spotify.CreatedPlaylist} (hp : Ready u name cs (S.scene s))
    (hi : Identified (creations (called es)))
    (h : S.Runs (Service.createPlaylist (nameOf l.name) (descriptionOf l.name) false) s es o s') :
    Ready u name cs (S.scene s') ∧
      (S.scene s).library.tables.Matches (S.scene s').library.tables ∧
      (S.scene s').library.tables.playlists = (S.scene s).library.tables.playlists ∧
      (∀ c ∈ called es, c.1 = creationCall name l) ∧
      ((creations (called es) = [] ∧ Refused S u name l ∧ ∃ e, o = .error e) ∨
        ∃ a, o = .ok a ∧ creations (called es) = [⟨name, nameOf l.name, some a.id⟩] ∧
          ∀ c ∈ called es, (creation? c).isSome) := by
  have ⟨x, hx, _, hxn⟩ := hp.session
  have ⟨_, _, he, hs, h⟩ := h.session_bind_inv hx
  have ⟨_, rest, s₁, he', hs', h⟩ := h.log_bind_inv
  have hce : called es = called rest := by rw [he, he']; rfl
  have hs := hs'.trans hs
  rw [hxn] at h
  rw [creations, hce] at hi ⊢
  have ⟨hc, ho⟩ := h.call_creates hi
  have hp₁ : Ready u name cs (S.scene s₁) := hs ▸ hp
  have ⟨hm, hpl⟩ := Preserves.call (matches_lasting (t := (S.scene s).library.tables)) _ _ _ _ h
    (by rw [hs]; exact ⟨.refl, rfl⟩)
  refine ⟨Preserves.call ready_lasting _ _ _ _ h hp₁, hm, hpl, hc, ?_⟩
  exact ho.imp (fun ⟨hn, e, ho⟩ => ⟨hn, ⟨cs, s₁, rest, e, s', hp₁, ho ▸ h⟩, e, ho⟩) id

-- The playlist that has been created for a label is recorded, as long as the label has none.
theorem recordPlaylist_inv {id message : String} {o : Except Failure String} (hp : Ready u name cs (S.scene s))
    (hu : Datum.IsStorable u) (hls : Datum.IsStorable l.id) (hl : l ∈ (S.scene s).library.tables.labels)
    (hlu : l.userId = u) (hn : l.id ∉ (S.scene s).library.tables.playlists.map (·.labelId))
    (h : S.Runs (do
      let x ← Program.session
      let _ ← Program.library (.addPlaylist (.integer x.userId) (.integer l.id) (.text id))
      Program.log .debug Playlist.logger message
      return id) s es o s') :
    called es = [] ∧ o = .ok id ∧ Ready u name (cs ++ [⟨name, nameOf l.name, some id⟩]) (S.scene s') ∧
      (S.scene s).library.tables.Matches (S.scene s').library.tables ∧
      (S.scene s').library.tables.playlists.map (·.labelId)
        = (S.scene s).library.tables.playlists.map (·.labelId) ++ [l.id] := by
  have ⟨x, hx, hxu, _⟩ := hp.session
  have ⟨_, s₁, he, hs₁, h⟩ := h.session_bind_inv hx
  rw [hxu] at h
  rw [← hs₁] at hp hl hn ⊢
  have ⟨v, hv, hk⟩ := List.mem_map.mp hp.user
  have hum : u ∈ (S.scene s₁).library.tables.users.map (·.id) :=
    List.mem_map.mpr ⟨v, hv, congrArg Prod.fst hk⟩
  have ⟨store, hst, ht, hsv⟩ :=
    (S.scene s₁).library.perform_addPlaylist (S.clock s₁) id hu hls hum (List.mem_map_of_mem hl) hn
  rcases h.bind_inv with ⟨_, _, h₂⟩ | ⟨_, s₂, _, _, he₁, h₂, h⟩
  case inl => cases (h₂.library_ok_inv (by nofun) hst).left
  have ⟨he₂, _, _⟩ := h₂.library_inv (by nofun)
  have ⟨_, hs₂⟩ := h₂.library_ok_inv (by nofun) hst
  have ⟨_, _, s₃, he₃, hs₃, h⟩ := h.log_bind_inv
  have ⟨he₄, ho, hs₄⟩ := h.done_inv
  have hs : S.scene s' = { S.scene s₁ with library := store } := by rw [hs₄, hs₃, hs₂]
  have hrec := hp.tables.concat id hp.user hl hlu hn
  rw [← ht] at hrec
  refine ⟨?_, ho, ⟨?_, ?_, ?_, ?_⟩, ?_, ?_⟩
  case refine_1 =>
    rw [he, he₁, he₂, he₃, he₄]
    rfl
  case refine_2 => rw [hs]; exact hp.session
  case refine_3 => rw [hs, ht]; exact hp.user
  case refine_4 => rw [hs]; exact hrec
  case refine_5 => rw [hs, hsv]; exact hrec
  case refine_6 => rw [hs, ht]; exact ⟨rfl, rfl⟩
  case refine_7 => simp [hs, ht]

-- The playlist of a label is created and recorded, or it has not come to be.
theorem provideOne_inv {o : Except Failure String} (hp : Ready u name cs (S.scene s))
    (hu : Datum.IsStorable u) (hl : l ∈ (S.scene s).library.tables.labelsWithoutPlaylist (.integer u))
    (hls : Datum.IsStorable l.id) (hi : Identified (creations (called es)))
    (h : S.Runs (provideOne l) s es o s') :
    Provided u name cs [l] (S.scene s) (called es) (S.scene s') ∧
      ((∃ e, o = .error e ∧ Refused S u name l ∧
          (S.scene s').library.tables.playlists = (S.scene s).library.tables.playlists) ∨
        (∃ id, o = .ok id) ∧ Complete name [l] (S.scene s) (called es) (S.scene s')) := by
  have ⟨hl, hlu, hn⟩ := Library.Tables.mem_labelsWithoutPlaylist.mp hl
  rcases h.bind_inv with ⟨e, ho, h₁⟩ | ⟨a, s₁, before, rest, he, h₁, h⟩
  case inl =>
    have ⟨hp', hm, hpl, hc, hr⟩ := h₁.createPlaylist_inv hp hi
    rcases hr with ⟨hn, hr, _⟩ | ⟨_, ho', _⟩
    case inr => cases ho'
    case inl =>
      refine ⟨⟨?_, hm, fun c h => ⟨l, List.mem_singleton_self l, hc c h⟩⟩, .inl ⟨e, ho, hr, hpl⟩⟩
      rwa [hn, List.append_nil]
  case inr =>
    rw [he, called_append, creations_append, identified_append] at hi
    have ⟨hp₁, hm, hpl, hc, hr⟩ := h₁.createPlaylist_inv hp hi.left
    rcases hr with ⟨_, _, _, ho'⟩ | ⟨_, ho', hcr, hall⟩ <;> cases ho'
    -- The label is still without a playlist, so the row can be added.
    have ⟨hnone, ho, hready, hm', hrows⟩ :=
      h.recordPlaylist_inv hp₁ hu hls (hm.labels ▸ hl) hlu (hpl ▸ hn)
    have hce : called es = called before := by rw [he, called_append, hnone, List.append_nil]
    rw [hce]
    refine ⟨⟨hcr ▸ hready, hm.trans hm', fun c h => ⟨l, List.mem_singleton_self l, hc c h⟩⟩, .inr ⟨⟨_, ho⟩, ?_⟩⟩
    exact ⟨hall, by rw [hcr]; rfl, by rw [hrows, hpl]; rfl⟩

end Surroundings.Runs

namespace Surroundings

open Playlist
open Library (Tables)

variable {σ : Type} {S : Surroundings σ} {u : Int} {name : String} {cs : List Creation}
variable {s s' : σ} {es : List Exchange} {labels : List Library.Label} {workers : Int}

-- Labels without a playlist get one in turn. Those that do not get one leave the others alone.
theorem Each.provides {found : List (Library.Label × Except Failure String)}
    (hp : Ready u name cs (S.scene s)) (hu : Datum.IsStorable u)
    (hl : ∀ l ∈ labels, l ∈ (S.scene s).library.tables.labelsWithoutPlaylist (.integer u))
    (hls : ∀ l ∈ (S.scene s).library.tables.labels, Datum.IsStorable l.id)
    (hd : (labels.map (·.id)).Nodup) (hi : Identified (creations (called es)))
    (h : S.Each provideOne labels s es found s') :
    Provided u name cs labels (S.scene s) (called es) (S.scene s') ∧
      ((∀ r ∈ found, ∃ id, r.2 = .ok id) → Complete name labels (S.scene s) (called es) (S.scene s')) ∧
      ∀ r ∈ found, ∀ e, r.2 = .error e → Refused S u name r.1 := by
  induction h generalizing cs
  case nil =>
    exact ⟨.nil hp, fun _ => .nil, List.forall_mem_nil _⟩
  case cons l rest s es o s₁ more found s₂ h₁ h₂ hr =>
    rw [called_append, creations_append, identified_append] at hi
    rw [called_append]
    have ⟨hl₁, hl⟩ := List.forall_mem_cons.mp hl
    have hlm := (Tables.mem_labelsWithoutPlaylist.mp hl₁).left
    have ⟨hd₁, hd⟩ := List.nodup_cons.mp hd
    have ⟨hone, ho⟩ := h₁.provideOne_inv hp hu hl₁ (hls l hlm) hi.left
    -- The others are still without a playlist.
    have hrest : ∀ l' ∈ rest, l' ∈ (S.scene s₁).library.tables.labelsWithoutPlaylist (.integer u) := by
      intro l' hl'
      have ⟨hm, hlu, hn⟩ := Tables.mem_labelsWithoutPlaylist.mp (hl l' hl')
      refine Tables.mem_labelsWithoutPlaylist.mpr ⟨hone.matched.labels ▸ hm, hlu, ?_⟩
      rcases ho with ⟨_, _, _, hpl⟩ | ⟨_, hc⟩
      case inl => rwa [hpl]
      case inr =>
        rw [hc.rows, List.mem_append]
        rintro (h | h)
        · exact hn h
        · exact hd₁ (List.mem_singleton.mp h ▸ List.mem_map_of_mem hl')
    have ⟨hall, hcomplete, hrefused⟩ := hr hone.ready hrest (hone.matched.labels ▸ hls) hd hi.right
    refine ⟨hone.append hall, fun hok => ?_, List.forall_mem_cons.mpr ⟨fun e he => ?_, hrefused⟩⟩
    case refine_1 =>
      have ⟨⟨id, hid⟩, hok⟩ := List.forall_mem_cons.mp hok
      rcases ho with ⟨_, he, _⟩ | ⟨_, hc⟩
      case inl => cases hid.symm.trans he
      case inr => exact hc.append (hcomplete hok)
    case refine_2 =>
      rcases ho with ⟨_, _, hrf, _⟩ | ⟨⟨_, hid⟩, _⟩
      case inl => exact hrf
      case inr => cases he.symm.trans hid

theorem Runs.provideEach_inv {description : String} {shown : Library.Label → String}
    {o : Except Failure (List (Library.Label × String))}
    (hp : Ready u name cs (S.scene s)) (hu : Datum.IsStorable u)
    (hl : ∀ l ∈ labels, l ∈ (S.scene s).library.tables.labelsWithoutPlaylist (.integer u))
    (hls : ∀ l ∈ (S.scene s).library.tables.labels, Datum.IsStorable l.id)
    (hd : (labels.map (·.id)).Nodup) (hi : Identified (creations (called es)))
    (h : S.Runs (Program.inParallel workers description shown provideOne labels) s es o s') :
    Provided u name cs labels (S.scene s) (called es) (S.scene s') ∧
      ((∃ results, o = .ok results) ∧ Complete name labels (S.scene s) (called es) (S.scene s') ∨
        (∃ e, o = .error e) ∧ (workers < 1 ∨ ∃ l, Refused S u name l)) := by
  rcases h.inParallel_inv with ⟨hw, hc, hs, he⟩ | ⟨found, s₁, before, rest, h₁, he, hc, hs, hor⟩
  case inl =>
    rw [hc, hs]
    exact ⟨.nil hp, .inr ⟨he, .inl hw⟩⟩
  case inr =>
    rw [he, called_append, hc, List.append_nil] at hi ⊢
    have ⟨hprovided, hcomplete, hrefused⟩ := h₁.provides hp hu hl hls hd hi
    rw [hs]
    refine ⟨hprovided, ?_⟩
    rcases hor with ⟨results, ho, hr⟩ | ⟨l, e, ho, hm⟩
    case inr => exact .inr ⟨⟨e, ho⟩, .inr ⟨l, hrefused _ hm e rfl⟩⟩
    case inl =>
      refine .inl ⟨⟨results, ho⟩, hcomplete fun r hm => ?_⟩
      have ⟨p, _, he⟩ := List.mem_map.mp (hr ▸ hm)
      exact ⟨p.2, (congrArg Prod.snd he).symm⟩

-- The labels of the user without a playlist get one, unless there is no valid token or a call fails.
theorem Runs.provideIn_inv {first : List Library.Label → List Library.Label} {o : Except Failure Nat}
    (hf : ∀ ls, (first ls).Perm ls) (hp : Ready u name cs (S.scene s))
    (hls : ∀ l ∈ (S.scene s).library.tables.labels, Datum.IsStorable l.id)
    (hi : Identified (creations (called es))) (h : S.Runs (provideIn first workers) s es o s') :
    ∃ labels, labels.Perm ((S.scene s).library.tables.labelsWithoutPlaylist (.integer u)) ∧
      Provided u name cs labels (S.scene s) (called es) (S.scene s') ∧
      ((∃ n, o = .ok n) ∧ Complete name labels (S.scene s) (called es) (S.scene s') ∨
        (∃ e, o = .error e) ∧ (workers < 1 ∨ ¬Datum.IsStorable u ∨ ∃ l, Refused S u name l)) := by
  refine ⟨first _, hf _, ?_⟩
  have ⟨x, hx, hxu, _⟩ := hp.session
  have ⟨_, s₁, he, hs, h⟩ := h.session_bind_inv hx
  rw [hxu] at h
  rcases (S.scene s₁).library.perform_asking (c := .labelsWithoutPlaylist (.integer u)) rfl
    with ⟨hu, hq⟩ | ⟨hu, hq⟩
  case inr =>
    rcases h.bind_inv with ⟨e, ho, h₂⟩ | ⟨_, s₂, _, _, _, h₂, _⟩ <;>
      have ⟨he₂, ho₂, hs₂⟩ := h₂.library_inv (by nofun) <;> rw [hq] at ho₂ hs₂
    case inr => cases ho₂
    case inl =>
      have hce : called es = [] := by rw [he, he₂]; rfl
      rw [hce, hs₂, hs]
      exact ⟨.nil hp, .inr ⟨⟨e, ho⟩, .inr (.inl hu)⟩⟩
  case inl =>
    rcases h.bind_inv with ⟨_, _, h₂⟩ | ⟨_, s₂, _, _, he', h₂, h⟩ <;>
      have ⟨he₂, ho₂, hs₂⟩ := h₂.library_inv (by nofun) <;> rw [hq] at ho₂ hs₂ <;> cases ho₂
    have hs₂ : S.scene s₂ = S.scene s := hs₂.trans hs
    rw [hs] at h
    split at h
    case isTrue hn =>
      have ⟨he₃, ho, hs₃⟩ := h.done_inv
      have hce : called es = [] := by rw [he, he', he₂, he₃]; rfl
      rw [((hf _).trans (.of_eq (List.isEmpty_iff.mp hn))).eq_nil, hce, hs₃, hs₂]
      exact ⟨.nil hp, .inl ⟨⟨0, ho⟩, .nil⟩⟩
    case isFalse =>
      have ⟨_, rest, s₃, he₃, hs₃, h⟩ := h.log_bind_inv
      have hce : called es = called rest := by rw [he, he', he₂, he₃]; rfl
      rw [← hs₃.trans hs₂] at hp hls h ⊢
      rw [hce] at hi ⊢
      have hperm := hf ((S.scene s₃).library.tables.labelsWithoutPlaylist (.integer u))
      have hl := fun l => (hperm.mem_iff (a := l)).mp
      have hd := (hperm.map (·.id)).nodup_iff.mpr (Tables.nodup_labelsWithoutPlaylist hp.tables.sound)
      rcases h.bind_inv with ⟨e, ho, h₄⟩ | ⟨results, s₄, before, _, he₄, h₄, h⟩
      case inl =>
        have ⟨hprovided, hor⟩ := h₄.provideEach_inv hp hu hl hls hd hi
        refine ⟨hprovided, .inr ⟨⟨e, ho⟩, ?_⟩⟩
        rcases hor with ⟨⟨_, ho'⟩, _⟩ | ⟨_, hr⟩
        case inl => cases ho'
        case inr => exact hr.imp id .inr
      case inr =>
        have ⟨he₅, ho, hs₅⟩ := h.done_inv
        rw [he₄, he₅, List.append_nil] at hi ⊢
        have ⟨hprovided, hor⟩ := h₄.provideEach_inv hp hu hl hls hd hi
        rw [hs₅]
        refine ⟨hprovided, .inl ⟨⟨_, ho⟩, ?_⟩⟩
        rcases hor with ⟨_, hc⟩ | ⟨⟨_, ho'⟩, _⟩
        case inl => exact hc
        case inr => cases ho'

end Surroundings

end LabelPlaylists
