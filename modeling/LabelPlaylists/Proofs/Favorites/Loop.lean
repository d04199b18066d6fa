import LabelPlaylists.Proofs.Favorites.Page

namespace LabelPlaylists

-- A program that needs a bound comes to the same end for all bounds that are large enough.
def Surroundings.Settles {σ : Type} (S : Surroundings σ) (t : Nat → Program α) (s : σ)
    (o : Except Failure α) (s' : σ) : Prop :=
  ∃ least, ∀ bound > least, (t bound).run S.answer s = (o, s')

theorem Surroundings.Settles.unique {σ : Type} {S : Surroundings σ} {t : Nat → Program α} {s s₁ s₂ : σ}
    {o₁ o₂ : Except Failure α} (h₁ : S.Settles t s o₁ s₁) (h₂ : S.Settles t s o₂ s₂) :
    o₁ = o₂ ∧ s₁ = s₂ := by
  have ⟨m₁, h₁⟩ := h₁
  have ⟨m₂, h₂⟩ := h₂
  have h := (h₁ (m₁ + m₂ + 1) (by omega)).symm.trans (h₂ (m₁ + m₂ + 1) (by omega))
  exact ⟨congrArg Prod.fst h, congrArg Prod.snd h⟩

namespace Favorites

open Library (Tables)
open Spotify (SavedTrack)

-- A full page of favorites that are not stored yet.
def EntirelyNew (t : Tables) (u : Int) (favorites : List SavedTrack) (n : Nat) : Prop :=
  (page favorites n).length = limit n ∧ ∀ i ∈ page favorites n, ¬Stores t u i

instance : Decidable (EntirelyNew t u favorites n) := by unfold EntirelyNew; infer_instance

variable {u : Int} {favorites items : List SavedTrack} {t t' : Tables} {n : Nat}

theorem limit_pos : 0 < limit n := by
  cases n <;> simp [limit, firstPage, furtherPage]

theorem take_offset_succ :
    favorites.take (offset (n + 1)) = favorites.take (offset n) ++ page favorites n :=
  List.take_add

theorem page_sublist : (page favorites n).Sublist favorites :=
  (List.take_sublist _ _).trans (List.drop_sublist _ _)

-- The favorites of the first pages in the order in which they are stored.
def arrivals (favorites : List SavedTrack) : Nat → List SavedTrack
  | 0     => []
  | n + 1 => arrivals favorites n ++ oldestFirst (page favorites n)

theorem arrivals_perm : (arrivals favorites n).Perm (favorites.take (offset n)) := by
  induction n
  case zero      => exact .refl []
  case succ n hi => exact take_offset_succ ▸ hi.append (oldestFirst_perm _)

theorem EntirelyNew.le_length (h : EntirelyNew t u favorites n) :
    offset (n + 1) ≤ favorites.length := by
  have hl := h.left
  have := limit_pos (n := n)
  simp only [page, List.length_take, List.length_drop] at hl
  simp only [offset]
  omega

theorem EntirelyNew.fresh_eq (h : EntirelyNew t u favorites n) :
    fresh t u (page favorites n) = page favorites n :=
  List.filter_eq_self.mpr fun i hi => by simpa using h.right i hi

theorem entirelyNew_iff :
    EntirelyNew t u favorites n ↔ (fresh t u (page favorites n)).length = limit n := by
  have hl : (page favorites n).length ≤ limit n := List.length_take_le ..
  have hf : (fresh t u (page favorites n)).length ≤ (page favorites n).length :=
    List.length_filter_le ..
  constructor
  case mp  => exact fun h => h.fresh_eq.symm ▸ h.left
  case mpr =>
    intro h
    have he : (page favorites n).length = limit n := by omega
    refine ⟨he, fun i hi => ?_⟩
    have := List.length_filter_eq_length_iff.mp (h.trans he.symm) i hi
    simpa using this

-- A page is as new as it was before the pages in front of it were stored.
theorem fresh_page (hn : (favorites.map (·.track.id)).Nodup)
    (hg : Gains u (arrivals favorites n) t t') :
    fresh t' u (page favorites n) = fresh t u (page favorites n) := by
  refine List.filter_congr fun i hi => ?_
  have hd : i.track.id ∉ (arrivals favorites n).map (·.track.id) := by
    intro hm
    have hm := (arrivals_perm.map _).mem_iff.mp hm
    rw [← List.take_append_drop (offset n) favorites, List.map_append] at hn
    exact List.disjoint_of_nodup_append hn hm (List.mem_map_of_mem (List.take_subset _ _ hi))
  simp [hg.stores, hd]

variable {σ : Type} {S : Surroundings σ} {G : σ → Prop} {s s₀ : σ} {workers : Int}

-- One page of a pull.
def turn (workers : Int) (offset limit : Nat) (sum : Summary) : Program (Nat × Summary) := do
  let page ← Account.Service.savedTracks offset limit
  let (count, sum) ← addPage workers page.items { sum with pages := sum.pages + 1 }
  Program.log .debug logger
    ("Page " ++ toString sum.pages ++ " (offset=" ++ toString offset ++ ", limit="
      ++ toString limit ++ "): " ++ toString count ++ " new tracks")
  return (count, sum)

theorem pullFrom_succ {pages offset limit : Nat} {sum : Summary} :
    pullFrom workers (pages + 1) offset limit sum = turn workers offset limit sum >>= fun r =>
      if r.1 = limit then pullFrom workers pages (offset + limit) furtherPage r.2
      else return r.2 := by
  rw [pullFrom, turn]
  simp only [bind, Program.bind_assoc]
  rfl

-- What is left to do when all pages are there.
def finish (sum : Summary) : Program Summary := do
  Program.log .info logger
    ("Pulled " ++ toString sum.tracks ++ " new tracks (" ++ toString sum.albums ++ " albums, "
      ++ toString sum.artists ++ " artists) in " ++ toString sum.pages ++ " page(s)")
  return sum

theorem pull_eq {pages : Nat} :
    pull pages workers = pullFrom workers pages (offset 0) (limit 0) {} >>= finish :=
  rfl

-- What a pull may rely on, from its beginning on.
structure Begins (S : Surroundings σ) (G : σ → Prop) (u : Int) (favorites : List SavedTrack) (s : σ) :
    Prop where
  offers   : Offers S G favorites
  serves   : S.Serves G u s
  storable : Datum.IsStorable u
  distinct : (favorites.map (·.track.id)).Nodup
  room     : (S.scene s).library.tables.lastTrack + favorites.length < 2 ^ 63

-- Before its next page, a pull has asked for all windows in front of it and has stored their favorites.
structure Reaches (S : Surroundings σ) (G : σ → Prop) (u : Int) (favorites : List SavedTrack)
    (n : Nat) (s₀ s : σ) : Prop where
  new      : ∀ k < n, EntirelyNew (S.scene s₀).library.tables u favorites k
  heard    : ∀ k < n, Hears S G k
  advances : Advances S G u ((List.range n).map window) (arrivals favorites n) s₀ s

theorem Reaches.le_length (h : Reaches S G u favorites n s₀ s) : offset n ≤ favorites.length := by
  cases n
  case zero   => exact Nat.zero_le _
  case succ n => exact (h.new n (Nat.lt_succ_self n)).le_length

-- A pull has come to its end with the given page.
structure Ends (S : Surroundings σ) (G : σ → Prop) (u : Int) (favorites : List SavedTrack)
    (n : Nat) (s₀ s : σ) : Prop where
  new      : ∀ k < n, EntirelyNew (S.scene s₀).library.tables u favorites k
  last     : ¬EntirelyNew (S.scene s₀).library.tables u favorites n
  heard    : ∀ k ≤ n, Hears S G k
  inOrder  : Advances S G u ((List.range (n + 1)).map window)
    (arrivals favorites n ++ oldestFirst (fresh (S.scene s₀).library.tables u (page favorites n))) s₀ s

theorem Ends.advances (h : Ends S G u favorites n s₀ s) :
    ∃ items, items.Perm (favorites.take (offset n) ++
        fresh (S.scene s₀).library.tables u (page favorites n)) ∧
      Advances S G u ((List.range (n + 1)).map window) items s₀ s :=
  ⟨_, arrivals_perm.append (oldestFirst_perm _), h.inOrder⟩

-- A pull has failed on the given page.
structure Fails (S : Surroundings σ) (G : σ → Prop) (u : Int) (favorites : List SavedTrack)
    (n : Nat) (s₀ s : σ) : Prop where
  new   : ∀ k < n, EntirelyNew (S.scene s₀).library.tables u favorites k
  halts : ∃ items, items.Perm (favorites.take (offset n)) ∧ Halts S G u n items s₀ s

theorem leads_turn (sum : Summary) (hb : Begins S G u favorites s₀) (hw : 1 ≤ workers)
    (h : Reaches S G u favorites n s₀ s) :
    S.Leads (turn workers (offset n) (limit n) sum) s
      (fun r s' =>
        Hears S G n ∧ r.1 = (fresh (S.scene s₀).library.tables u (page favorites n)).length ∧
        Advances S G u ((List.range (n + 1)).map window) (arrivals favorites n ++
          oldestFirst (fresh (S.scene s₀).library.tables u (page favorites n))) s₀ s')
      (Fails S G u favorites n s₀) := by
  have ha := h.advances
  have hk := hb.offers.keeps
  have hf {ws s s'} (h' : Advances S G u ws (arrivals favorites n) s₀ s) (hh : Halts S G u n [] s s') :
      Fails S G u favorites n s₀ s' := ⟨h.new, _, arrivals_perm, hh.trans h'⟩
  refine ((leads_savedTracks hb.offers hb.storable ha.serves).mono id (hf ha)).bind ?_
  intro found s₁ ⟨hh, hpage, h₁⟩
  have h₁ := ha.trans h₁
  rw [List.append_nil] at h₁
  rw [hpage]
  have hn : ((page favorites n).map (·.track.id)).Nodup := hb.distinct.sublist (page_sublist.map _)
  have hr : (S.scene s₁).library.tables.lastTrack + (page favorites n).length < 2 ^ 63 := by
    have := hb.room
    have hl : (arrivals favorites n).length = (favorites.take (offset n)).length := arrivals_perm.length_eq
    have := h.le_length
    rw [h₁.gains.last]
    simp only [List.length_take, page, List.length_drop] at hl ⊢
    omega
  refine ((leads_addPage hb.offers hb.storable hw h₁.serves hn hr).mono id (hf h₁)).bind ?_
  intro r s₂ ⟨hc, h₂⟩
  rw [fresh_page hb.distinct h₁.gains] at hc h₂
  refine (Surroundings.leads_log hk (.refl h₂.serves)).bind fun {_ s₃} hi => ?_
  have ha' := (h₁.trans h₂).idle hi
  rw [List.append_nil] at ha'
  refine .done ⟨hh, hc, ?_⟩
  rw [List.range_succ, List.map_append]
  exact ha'

section

variable {sum : Summary} {r : Nat × Summary} {e : Failure} {o : Except Failure Summary} {s₁ s' : σ}

-- A pull ends with a page that fails.
theorem settles_failed (hr : (turn workers (offset n) (limit n) sum).run S.answer s = (.error e, s₁)) :
    S.Settles (fun pages => pullFrom workers pages (offset n) (limit n) sum) s (.error e) s₁ := by
  refine ⟨0, fun bound hb => ?_⟩
  obtain ⟨pages, rfl⟩ := Nat.exists_eq_succ_of_ne_zero (Nat.ne_of_gt hb)
  dsimp only
  rw [pullFrom_succ]
  exact Program.run_bind_error hr

-- It ends with a page that is not stored as a whole, too.
theorem settles_last (hr : (turn workers (offset n) (limit n) sum).run S.answer s = (.ok r, s₁))
    (hc : r.1 ≠ limit n) :
    S.Settles (fun pages => pullFrom workers pages (offset n) (limit n) sum) s (.ok r.2) s₁ := by
  refine ⟨0, fun bound hb => ?_⟩
  obtain ⟨pages, rfl⟩ := Nat.exists_eq_succ_of_ne_zero (Nat.ne_of_gt hb)
  dsimp only
  rw [pullFrom_succ, Program.run_bind_ok hr, if_neg hc]
  rfl

-- After a page that is stored as a whole it goes on with the next one.
theorem settles_next (hr : (turn workers (offset n) (limit n) sum).run S.answer s = (.ok r, s₁))
    (hc : r.1 = limit n)
    (h : S.Settles (fun pages => pullFrom workers pages (offset (n + 1)) (limit (n + 1)) r.2) s₁ o s') :
    S.Settles (fun pages => pullFrom workers pages (offset n) (limit n) sum) s o s' := by
  have ⟨least, h⟩ := h
  refine ⟨least + 1, fun bound hb => ?_⟩
  obtain ⟨pages, rfl⟩ := Nat.exists_eq_succ_of_ne_zero (Nat.ne_zero_of_lt hb)
  dsimp only
  rw [pullFrom_succ, Program.run_bind_ok hr, if_pos hc]
  exact h pages (Nat.lt_of_succ_lt_succ hb)

end

theorem Reaches.succ (h : Reaches S G u favorites n s₀ s) (hh : Hears S G n)
    (hn : EntirelyNew (S.scene s₀).library.tables u favorites n) {s₁ : σ}
    (ha : Advances S G u ((List.range (n + 1)).map window) (arrivals favorites n ++
      oldestFirst (fresh (S.scene s₀).library.tables u (page favorites n))) s₀ s₁) :
    Reaches S G u favorites (n + 1) s₀ s₁ where
  new k hk   := (Nat.lt_succ_iff_lt_or_eq.mp hk).elim (h.new k) (· ▸ hn)
  heard k hk := (Nat.lt_succ_iff_lt_or_eq.mp hk).elim (h.heard k) (· ▸ hh)
  advances   := by
    rw [hn.fresh_eq] at ha
    exact ha

-- Pages are pulled up to the first that is not entirely new, or up to a failure.
theorem pullFrom_settles (sum : Summary) (hb : Begins S G u favorites s₀) (hw : 1 ≤ workers)
    (h : Reaches S G u favorites n s₀ s) :
    ∃ m s', (∃ total, Ends S G u favorites m s₀ s' ∧
        S.Settles (fun pages => pullFrom workers pages (offset n) (limit n) sum) s (.ok total) s') ∨
      (∃ e, Fails S G u favorites m s₀ s' ∧
        S.Settles (fun pages => pullFrom workers pages (offset n) (limit n) sum) s (.error e) s') := by
  -- Each page that is entirely new takes the offset closer to the end of the favorites.
  induction hl : favorites.length - offset n using Nat.strongRecOn generalizing n s sum
  case ind l hi =>
    rcases (leads_turn sum hb hw h).cases
      with ⟨r, s₁, hr, hh, hc, ha⟩ | ⟨e, s₁, hr, hf⟩
    case inr => exact ⟨n, s₁, .inr ⟨e, hf, settles_failed hr⟩⟩
    case inl =>
      by_cases hnew : EntirelyNew (S.scene s₀).library.tables u favorites n
      case neg =>
        have hheard k (hk : k ≤ n) := (Nat.lt_or_eq_of_le hk).elim (h.heard k) (· ▸ hh)
        have he : Ends S G u favorites n s₀ s₁ := ⟨h.new, hnew, hheard, ha⟩
        exact ⟨n, s₁, .inl ⟨r.2, he, settles_last hr (hc ▸ mt entirelyNew_iff.mpr hnew)⟩⟩
      case pos =>
        have hs := h.succ hh hnew ha
        have hlt : favorites.length - offset (n + 1) < l := by
          have := hs.le_length
          have := limit_pos (n := n)
          simp only [offset] at *
          omega
        have hc : r.1 = limit n := hc ▸ entirelyNew_iff.mp hnew
        have ⟨m, s', ho⟩ := hi _ hlt r.2 hs rfl
        rcases ho with ⟨total, he, hs'⟩ | ⟨e, hf, hs'⟩
        case inl => exact ⟨m, s', .inl ⟨total, he, settles_next hr hc hs'⟩⟩
        case inr => exact ⟨m, s', .inr ⟨e, hf, settles_next hr hc hs'⟩⟩

-- A pull stores page after page up to the first that is not entirely new, unless it fails.
theorem pull_settles (hb : Begins S G u favorites s) (hw : 1 ≤ workers) :
    ∃ m s', (∃ total, Ends S G u favorites m s s' ∧
        S.Settles (fun pages => pull pages workers) s (.ok total) s') ∨
      (∃ e, Fails S G u favorites m s s' ∧
        S.Settles (fun pages => pull pages workers) s (.error e) s') := by
  have h₀ : Reaches S G u favorites 0 s s := ⟨nofun, nofun, .refl hb.serves⟩
  have ⟨m, s', ho⟩ := pullFrom_settles {} hb hw h₀
  rcases ho with ⟨total, he, least, hs⟩ | ⟨e, hf, least, hs⟩
  case inr =>
    refine ⟨m, s', .inr ⟨e, hf, least, fun bound hb => ?_⟩⟩
    dsimp only at hs ⊢
    rw [pull_eq]
    exact Program.run_bind_error (hs bound hb)
  case inl =>
    have ha := he.inOrder
    have hl : S.Leads (finish total) s' (fun _ => S.Idles G u s') (fun _ => False) :=
      (Surroundings.leads_log hb.offers.keeps (.refl ha.serves)).bind fun h => .done h
    rcases hl.cases with ⟨t, s'', hr, hi⟩ | ⟨_, _, _, hf⟩
    case inr => exact hf.elim
    case inl =>
      refine ⟨m, s'', .inl ⟨t, ⟨he.new, he.last, he.heard, ha.idle hi⟩, least, fun bound hb => ?_⟩⟩
      dsimp only at hs ⊢
      rw [pull_eq]
      exact (Program.run_bind_ok (hs bound hb)).trans hr

end Favorites

end LabelPlaylists
