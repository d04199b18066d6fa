import LabelPlaylists.Proofs.Account.Token
import LabelPlaylists.Proofs.Favorites.Gain

namespace LabelPlaylists.Favorites

open Spotify (Call SavedTrack Schema)

-- The size of a page by its number.
def limit : Nat → Nat
  | 0     => firstPage
  | _ + 1 => furtherPage

-- Where a page begins.
def offset : Nat → Nat
  | 0     => 0
  | n + 1 => offset n + limit n

def window (n : Nat) : Int × Int := (offset n, limit n)

def page (favorites : List SavedTrack) (n : Nat) : List SavedTrack :=
  (favorites.drop (offset n)).take (limit n)

-- The windows of the favorites that calls have asked for, each with its offset and its limit.
def fetched (calls : List Call) : List (Int × Int) :=
  calls.filterMap fun
    | .savedTracks limit offset => some (offset, limit)
    | _                         => none

theorem fetched_append {calls more : List Call} :
    fetched (calls ++ more) = fetched calls ++ fetched more :=
  List.filterMap_append

variable {σ : Type} {S : Surroundings σ} {G : σ → Prop} {u : Int} {n : Nat} {s s' s'' : σ}
variable {E : σ → Prop}

-- A pull has asked for windows and has stored favorites, one after the other.
structure Advances (S : Surroundings σ) (G : σ → Prop) (u : Int) (windows : List (Int × Int))
    (items : List SavedTrack) (s s' : σ) : Prop where
  serves  : S.Serves G u s'
  gains   : Gains u items (S.scene s).library.tables (S.scene s').library.tables
  fetched : fetched (S.scene s').calls = fetched (S.scene s).calls ++ windows

namespace Advances

variable {ws vs : List (Int × Int)} {items more : List SavedTrack}

theorem refl (h : S.Serves G u s) : Advances S G u [] [] s s :=
  ⟨h, .refl, by simp⟩

theorem trans (h : Advances S G u ws items s s') (h' : Advances S G u vs more s' s'') :
    Advances S G u (ws ++ vs) (items ++ more) s s'' where
  serves  := h'.serves
  gains   := h.gains.trans h'.gains
  fetched := by rw [h'.fetched, h.fetched, List.append_assoc]

theorem idle (h : Advances S G u ws items s s') (hi : S.Idles G u s' s'') :
    Advances S G u ws items s s'' := by
  have ⟨users, ht, hu⟩ := hi.tables
  refine ⟨hi.serves, ?_, by rw [hi.calls, h.fetched]⟩
  have hg : Gains u [] (S.scene s').library.tables (S.scene s'').library.tables := by
    rw [ht]
    exact { (Gains.refl : Gains u [] (S.scene s').library.tables (S.scene s').library.tables) with
      users := hu }
  exact List.append_nil items ▸ h.gains.trans hg

theorem call (hk : S.Keeps G) (token : String) (c : Call) (h : Advances S G u ws items s s') :
    Advances S G u (ws ++ Favorites.fetched [c]) items s (S.answer (.call token c) s').2 := by
  refine ⟨h.serves.call hk token c, ?_, ?_⟩ <;> rw [S.call]
  · exact h.gains
  · rw [fetched_append, h.fetched, List.append_assoc]

end Advances

-- What Spotify answers, if it answers: the favorites that lie in a window, and an artist for every id.
-- An answer of another shape is none.
structure Offers (S : Surroundings σ) (G : σ → Prop) (favorites : List SavedTrack) : Prop where
  keeps     : S.Keeps G
  favorites : ∀ {s token page} {offset limit : Nat}, G s →
    heard Schema.savedTracks (S.answer (.call token (.savedTracks limit offset)) s).1 = some page →
    page.items = (favorites.drop offset).take limit
  artists   : ∀ {s token ids found}, G s →
    heard Schema.artists (S.answer (.call token (.artists ids)) s).1 = some found →
    ids ⊆ found.artists.map (·.id)

-- Nothing that is asked for on a page ever fails.
structure Delivers (S : Surroundings σ) (G : σ → Prop) (n : Nat) : Prop extends S.Renews G where
  favorites : ∀ {s token}, G s →
    (heard Schema.savedTracks (S.answer (.call token (.savedTracks (limit n) (offset n))) s).1).isSome
  artists   : ∀ {s token ids}, G s →
    (heard Schema.artists (S.answer (.call token (.artists ids)) s).1).isSome

-- The window of a page has been answered.
def Hears (S : Surroundings σ) (G : σ → Prop) (n : Nat) : Prop :=
  ∃ token s, G s ∧
    (heard Schema.savedTracks (S.answer (.call token (.savedTracks (limit n) (offset n))) s).1).isSome

-- A failure on a page after which just the given favorites have been stored.
def Halts (S : Surroundings σ) (G : σ → Prop) (u : Int) (n : Nat) (items : List SavedTrack)
    (s s' : σ) : Prop :=
  ¬Delivers S G n ∧ ∃ windows, Advances S G u windows items s s'

theorem Halts.trans {ws : List (Int × Int)} {items : List SavedTrack}
    (h : Advances S G u ws items s s') (h' : Halts S G u n [] s' s'') : Halts S G u n items s s'' :=
  have ⟨hd, _, ha⟩ := h'
  ⟨hd, _, List.append_nil items ▸ h.trans ha⟩

-- A call of Spotify during a pull, whose failure leaves the library as it is.
theorem leads_call {c : Call} {schema : Schema α} (hk : S.Keeps G) (hu : Datum.IsStorable u)
    (hd : Delivers S G n →
      ∀ {s token}, G s → (heard schema (S.answer (.call token c) s).1).isSome)
    (h : S.Serves G u s) :
    S.Leads (Account.Service.call c schema) s
      (fun a s' => (∃ token s₁, G s₁ ∧ heard schema (S.answer (.call token c) s₁).1 = some a) ∧
        Advances S G u (fetched [c]) [] s s')
      (Halts S G u n [] s) := by
  refine (Surroundings.leads_call hk hu (.refl h)).mono ?_ ?_
  case refine_1 =>
    intro a s' ⟨token, s₁, hi, ha, hi'⟩
    exact ⟨⟨token, s₁, hi.serves.good, ha⟩, (((Advances.refl h).idle hi).call hk token c).idle hi'⟩
  case refine_2 =>
    intro s' he
    rcases he with ⟨hr, hi⟩ | ⟨token, s₁, hi, ha, hi'⟩
    case inl => exact ⟨fun hd => hr hd.toRenews, [], (Advances.refl h).idle hi⟩
    case inr =>
      refine ⟨fun hf => ?_, _, (((Advances.refl h).idle hi).call hk token c).idle hi'⟩
      have hs := @hd hf s₁ token hi.serves.good
      simp [ha] at hs

theorem leads_savedTracks {favorites : List SavedTrack} (ho : Offers S G favorites)
    (hu : Datum.IsStorable u) (h : S.Serves G u s) :
    S.Leads (Account.Service.savedTracks (offset n) (limit n)) s
      (fun found s' => Hears S G n ∧ found.items = page favorites n ∧
        Advances S G u [window n] [] s s')
      (Halts S G u n [] s) := by
  refine (Surroundings.leads_log ho.keeps (.refl h)).bind fun {_ s₁} hi => ?_
  refine (leads_call ho.keeps hu (fun hd _ _ => hd.favorites) hi.serves).mono ?_
    (Halts.trans ((Advances.refl h).idle hi))
  intro found s' ⟨⟨token, s₂, hg, ha⟩, had⟩
  have hh : Hears S G n := ⟨token, s₂, hg, by rw [ha]; rfl⟩
  exact ⟨hh, ho.favorites hg ha, ((Advances.refl h).idle hi).trans had⟩

-- An artist is found for every id that is looked up.
theorem leads_artists {favorites : List SavedTrack} {ids : List String} (ho : Offers S G favorites)
    (hu : Datum.IsStorable u) (h : S.Serves G u s) :
    S.Leads (Account.Service.artists ids) s
      (fun found s' => ids ⊆ found.map (·.id) ∧ Advances S G u [] [] s s') (Halts S G u n [] s) := by
  suffices hs : ∀ batches : List (List String), ∀ s, S.Serves G u s →
      S.Leads (Account.Service.artistsOf batches) s
        (fun found s' => batches.flatten ⊆ found.map (·.id) ∧ Advances S G u [] [] s s')
        (Halts S G u n [] s) by
    have := hs (pieces Account.Service.moreArtists ids) s h
    rwa [flatten_pieces] at this
  intro batches
  induction batches
  case nil => exact fun s h => .done ⟨by simp, .refl h⟩
  case cons batch rest hi =>
    intro s h
    refine (Surroundings.leads_log ho.keeps (.refl h)).bind fun {_ s₁} hl => ?_
    have h₁ := (Advances.refl h).idle hl
    refine ((leads_call ho.keeps hu (fun hd _ _ => hd.artists) h₁.serves).mono id (Halts.trans h₁)).bind ?_
    intro found s₂ ⟨⟨token, s', hg, ha⟩, had⟩
    have h₂ := h₁.trans had
    refine ((hi s₂ h₂.serves).mono id (Halts.trans h₂)).bind fun {others s₃} ⟨hm, had⟩ => ?_
    refine .done ⟨?_, h₂.trans had⟩
    simp only [List.flatten_cons, List.map_append, List.append_subset]
    exact ⟨List.Subset.trans (ho.artists hg ha) (List.subset_append_left _ _),
      List.Subset.trans hm (List.subset_append_right _ _)⟩

-- An operation of the library that ends well.
theorem leads_library {c : Library.Command} {a : c.Reply} {l : Library.Store}
    {items more : List SavedTrack} {ws : List (Int × Int)} (hk : S.Keeps G)
    (h : Advances S G u ws items s s')
    (hp : (S.scene s').library.perform (S.clock s') c = (.ok a, l))
    (hg : Gains u more (S.scene s').library.tables l.tables) (hc : ∀ u f, c ≠ .find u f) :
    S.Leads (Program.library c) s'
      (fun b s'' => b = a ∧ (S.scene s'').library = l ∧ Advances S G u ws (items ++ more) s s'') E := by
  have ⟨hr, hs⟩ := Prod.mk.inj (S.library (s := s') hc)
  have hl : (S.scene (S.answer (.library c) s').2).library = l := by rw [hs, hp]
  refine .ask ?_
  rw [hr, hp]
  refine .done ⟨rfl, hl, ⟨hk _ _ h.serves.good, ?_, ?_, ?_⟩, ?_, ?_⟩
  · rw [hs]; exact h.serves.session
  · rw [hs]; exact h.serves.sound.perform
  · rw [hl, hg.users]; exact h.serves.user
  · rw [hl]; exact h.gains.trans hg
  · rw [hs, ← h.fetched]

end LabelPlaylists.Favorites
