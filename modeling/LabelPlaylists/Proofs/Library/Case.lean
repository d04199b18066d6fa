import LabelPlaylists.Proofs.Criteria.Written
import LabelPlaylists.Proofs.Library.Newest

namespace LabelPlaylists

open Text (fold folded)

variable {v w : String}

theorem Text.takeWhile_fold (l : List Char) :
    (fold l).takeWhile (·.toNat ≠ 0) = fold (l.takeWhile (·.toNat ≠ 0)) := by
  unfold fold
  rw [List.takeWhile_map]
  congr 2
  funext c
  exact decide_eq_decide.mpr (not_congr toLower_eq_null_iff)

namespace Datum

theorem sameText_congr (h : folded v = folded w) (s : String) : sameText s v = sameText s w := by
  have ho : fold (Text.octets v) = fold (Text.octets w) := by
    rw [Text.fold_octets, Text.fold_octets, h]
  have hl : (Text.octets v).length = (Text.octets w).length := by
    simpa [fold] using congrArg List.length ho
  unfold sameText
  dsimp only
  rw [hl, ← Text.takeWhile_fold (Text.octets v), ho, Text.takeWhile_fold]

-- Two texts that differ in the case of A to Z alone compare alike with any value.
theorem compare?_congr (h : folded v = folded w) (d : Datum) :
    compare? true d (.text v) = compare? true d (.text w) := by
  cases d
  case text s =>
    show (if sameText s v then some Ordering.eq else some (compare (folded s) (folded v))) = _
    rw [sameText_congr h, h]
    rfl
  all_goals rfl

end Datum

namespace Criteria.Condition

open Sql (Scope Test)

-- The store can read every comparison with a text.
theorem textTest_fits (a : TextAttribute) (r : TextRelation) : (textTest a r).IsReadable ∧ (textTest a r).IsLow := by
  cases a <;> cases r <;> decide

theorem eval_textTest_congr (h : folded v = folded w) (a : TextAttribute) (r : TextRelation) (s : Scope) :
    (textTest a r).eval s [.text v] = (textTest a r).eval s [.text w] := by
  have hc (s : Scope) (r : Relation) : (Test.compareFolded r (.column a.column) .parameter).eval s [.text v]
      = (Test.compareFolded r (.column a.column) .parameter).eval s [.text w] :=
    congrArg (Option.map r.holds) (Datum.compare?_congr h _)
  have hh (s : Scope) : (Test.holds (.lower (.column a.column)) (.lower .parameter)).eval s [.text v]
      = (Test.holds (.lower (.column a.column)) (.lower .parameter)).eval s [.text w] := by
    show Sql.containment (Sql.lowered _) (.text (folded v)) = _
    rw [h]
    rfl
  unfold textTest
  cases a.rows?
  case none =>
    cases r
    case equals   => exact hc s .eq
    case differs  => exact hc s .ne
    case contains => exact hh s
  case some rows =>
    have he {t : Test} (ht : ∀ s, t.eval s [.text v] = t.eval s [.text w]) :
        (Test.exists' rows t).eval s [.text v] = (Test.exists' rows t).eval s [.text w] ∧
          (Test.notExists rows t).eval s [.text v] = (Test.notExists rows t).eval s [.text w] := by
      simp only [Test.eval, ht, and_self]
    cases r
    case equals   => exact (he (hc · .eq)).left
    case differs  => exact (he (hc · .eq)).right
    case contains => exact (he hh).left

end Criteria.Condition

namespace Library

open Criteria (Operator TextAttribute TextRelation compile compared)

-- A search by texts that differ in the case of A to Z alone.
theorem Tables.find_congr (h : folded v = folded w) (t : Tables) (user : Datum) (a : TextAttribute) (r : TextRelation) :
    t.find user (some (Criteria.Condition.text a r v).filter)
      = t.find user (some (Criteria.Condition.text a r w).filter) := by
  have hp : t.passes (Criteria.Condition.text a r v).filter = t.passes (Criteria.Condition.text a r w).filter := by
    funext k
    unfold passes
    split
    case h_1 b _ => exact congrArg (· == some true) (Criteria.Condition.eval_textTest_congr h a r (t.scope k b))
    case h_2     => rfl
  unfold find
  dsimp only
  rw [hp]
  rfl

namespace Store

theorem perform_find_congr (h : folded v = folded w) (s : Store) (now : Moment) (user : Datum) (a : TextAttribute)
    (r : TextRelation) :
    (s.perform now (.find user (some (Criteria.Condition.text a r v).filter))).1
      = (s.perform now (.find user (some (Criteria.Condition.text a r w).filter))).1 := by
  have hr : Work.refusal? 1 (user :: filterValues (some (Criteria.Condition.text a r v).filter))
      = Work.refusal? 1 (user :: filterValues (some (Criteria.Condition.text a r w).filter)) := by
    cases user <;> rfl
  rw [perform_find_eq, perform_find_eq, Tables.find_congr h, hr]

namespace Sample

variable (text : String)

def user : User := ⟨1, "alice", none, "token", "refresh", noon.text, noon.inUtc.text, noon.inUtc.text⟩

def album : Album := ⟨some "album", text, none, some "2020"⟩

def artist : Artist := ⟨some "artist", text, (Json.arr [.str text]).text⟩

def track : Track := ⟨1, 1, "track", text, "album", "2024-01-01", true⟩

def label : Label := ⟨1, 1, text, none, noon.inUtc.text⟩

def tables : Tables where
  version   := some layoutVersion
  users     := [user]
  albums    := [album text]
  artists   := [artist text]
  tracks    := [track text]
  credits   := [⟨1, "artist"⟩]
  lastUser  := 1
  lastTrack := 1

def labelled : Tables :=
  { tables text with labels := [label text], memberships := [⟨1, 1⟩], lastLabel := 1 }

-- A library of one track. Every text that criteria can ask for is the given one.
def about : Store := ⟨"library", labelled text, labelled text, 8⟩

variable {text}

theorem about_reached (h : Text.IsPlain text) : Reached Command.IsPlain (about text) := by
  have hf : Reached Command.IsPlain ⟨"library", tables text, tables text, 6⟩ := by
    let commands : List Command := [
      .putUser ⟨.text "alice", .null, .text "token", .text "refresh"⟩ noon,
      .addAlbums [⟨.text "album", .text text, .null, .text "2020"⟩],
      .addArtists [⟨.text "artist", .text text, (Json.arr [.str text]).text⟩],
      .addTrack (.integer 1) ⟨.text "track", .text text, .text "album", .text "2024-01-01", true⟩
        [.text "artist"]
    ]
    have hc : commands.foldl (fun s c => (Store.perform noon c s).2) (Store.create "library")
      = ⟨"library", tables text, tables text, 6⟩ := rfl
    rw [← hc]
    refine .perform (.perform (.perform (.perform .create ?_) ?_) ?_) ?_
    case refine_1 => trivial
    case refine_2 =>
      exact List.forall_mem_singleton.mpr ⟨Datum.isPlain_text h, Datum.isPlain_text (by decide)⟩
    case refine_3 =>
      exact List.forall_mem_singleton.mpr
        ⟨Datum.isPlain_text h, [text], List.forall_mem_singleton.mpr h, rfl⟩
    case refine_4 => exact Datum.isPlain_text h
  have hl : Reached Command.IsPlain
      (Store.perform noon (.addLabel (.integer 1) (.text text) .null) ⟨"library", tables text, tables text, 6⟩).2 :=
    hf.perform (Datum.isPlain_text h)
  have hm : Reached Command.IsPlain (Store.perform noon (.addMembership (.integer 1) (.integer 1)) _).2 :=
    hl.perform trivial
  exact hm

theorem texts_about (text : String) (a : TextAttribute) :
    a.texts ((about text).tables.facts (track text) (album text)) = [text] := by
  cases a
  case name   => rfl
  case album  => rfl
  case artist => rfl
  case genre  =>
    have hc : (about text).tables.credited (track text).id = [artist text] := rfl
    simp only [TextAttribute.texts, Tables.facts, hc, List.flatMap_singleton]
    exact Artist.genreNames_eq (show _ = (Json.arr ([text].map .str)).text from rfl)
  case label  => rfl

variable {a : TextAttribute} {o : Operator} {r : TextRelation}

-- The track is found by what the operator says of its only text.
theorem find_about (ho : o.textRelation? = some r) (h : Text.IsPlain text) (literal : String) :
    ∃ views, ((about text).perform noon
        (.find (.integer 1) (some (Criteria.Condition.text a r literal).filter))).1 = .ok views ∧
      (track text ∈ views.map (·.track) ↔ o.ofTexts [text] literal = some true) := by
  have hr := about_reached h
  have hc := Criteria.ofTree_compared (a := a) ho literal 0
  have hf := Tables.finds_views hr.sound.tables hr.isPlain 1 hc
  have ⟨ht, hl⟩ := Criteria.Condition.textTest_fits a r
  refine ⟨_, ?_, (hf.tracks (track text)).trans ?_⟩
  · rw [perform_find_of_compile (by decide) (Criteria.compile_compared (a := a) ho literal)]
    exact congrArg (Except.mapError _) (Tables.find_ok ht hl)
  · show _ ∧ _ ∧ _ ↔ _
    have hm : (Criteria.Tree.comparison (Criteria.Attribute.text a).name o (.text literal) 0).meaning
        ((about text).tables.facts (track text) (album text)) = o.ofTexts [text] literal := by
      rw [← texts_about text a]
      exact Criteria.compared_text a o literal
    rw [← hm]
    constructor
    case mp =>
      intro ⟨_, _, b, hb, _, hp⟩
      cases List.mem_singleton.mp hb
      exact hp
    case mpr => exact fun hp => ⟨List.mem_singleton_self _, rfl, album text, List.mem_singleton_self _, rfl, hp⟩

end Sample

variable {a : TextAttribute} {o : Operator} {r : TextRelation}

-- Criteria that compare with two texts find the same tracks in every library exactly if the texts differ
-- in the case of A to Z alone: no other letter is taken for its capital.
theorem find_alike_iff (ho : o.textRelation? = some r) (hv : Text.IsPlain v) (hw : Text.IsPlain w) :
    ∃ c d, compile (compared a o v) = .ok c ∧ compile (compared a o w) = .ok d ∧
      ((∀ s, Reached (fun _ => True) s → ∀ user now,
          (s.perform now (.find user (some c.filter))).1 = (s.perform now (.find user (some d.filter))).1) ↔
        folded v = folded w) := by
  refine ⟨_, _, Criteria.compile_compared ho v, Criteria.compile_compared ho w, fun h => ?_, fun h => ?_⟩
  case refine_2 => exact fun s _ user now => perform_find_congr h s now user a r
  case refine_1 =>
    have hs {text : String} (ht : Text.IsPlain text) :
        o.ofTexts [text] v = some true ↔ o.ofTexts [text] w = some true := by
      have ⟨_, hfv, hv⟩ := Sample.find_about (a := a) ho ht v
      have ⟨_, hfw, hw⟩ := Sample.find_about (a := a) ho ht w
      have he := h _ ((Sample.about_reached ht).mono fun _ _ => trivial) (.integer 1) Sample.noon
      cases hfv.symm.trans (he.trans hfw)
      exact hv.symm.trans hw
    refine congrArg String.ofList ?_
    cases o <;> cases ho
    case eq => simpa [Operator.ofTexts] using hs hv
    case ne => simpa [Operator.ofTexts] using hs hv
    case contains =>
      have hwv : fold w.toList <:+: fold v.toList := by simpa [Operator.ofTexts] using hs hv
      have hvw : fold v.toList <:+: fold w.toList := by simpa [Operator.ofTexts] using hs hw
      exact hvw.eq_of_length_le hwv.length_le

-- The capital of an accented letter is another letter to the library, that of a plain one is not.
theorem find_alike_umlaut :
    (∃ c d, compile (compared .artist .eq "BJÖRK") = .ok c ∧ compile (compared .artist .eq "björk") = .ok d ∧
      ¬∀ s, Reached (fun _ => True) s → ∀ user now,
        (s.perform now (.find user (some c.filter))).1 = (s.perform now (.find user (some d.filter))).1) ∧
    ∃ c d, compile (compared .artist .eq "MUSE") = .ok c ∧ compile (compared .artist .eq "muse") = .ok d ∧
      ∀ s, Reached (fun _ => True) s → ∀ user now,
        (s.perform now (.find user (some c.filter))).1 = (s.perform now (.find user (some d.filter))).1 := by
  have ho : Operator.eq.textRelation? = some .equals := rfl
  have ⟨c, d, hc, hd, h⟩ :=
    find_alike_iff (a := .artist) (v := "BJÖRK") (w := "björk") ho (by decide) (by decide)
  have ⟨c', d', hc', hd', h'⟩ :=
    find_alike_iff (a := .artist) (v := "MUSE") (w := "muse") ho (by decide) (by decide)
  exact ⟨⟨c, d, hc, hd, mt h.mp (by decide)⟩, c', d', hc', hd', h'.mpr (by decide)⟩

end Store

end Library

end LabelPlaylists
