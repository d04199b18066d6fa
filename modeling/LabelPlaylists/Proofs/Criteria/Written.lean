import LabelPlaylists.Proofs.Criteria.Filter
import LabelPlaylists.Proofs.Criteria.Negated
import LabelPlaylists.Proofs.Criteria.Scanned

namespace LabelPlaylists.Criteria

namespace Token

-- A text as it is written between quotes, a backslash before every backslash and every such quote.
def escaped (quote : Char) : List Char → List Char
  | []        => []
  | c :: rest =>
    if c = quote ∨ c = Text.backslash then Text.backslash :: c :: escaped quote rest
    else c :: escaped quote rest

-- A text as a string literal.
def written (value : String) : String :=
  String.ofList (Text.doubleQuote :: (escaped Text.doubleQuote value.toList ++ [Text.doubleQuote]))

variable {c quote : Char} {taken rest : List Char} {l : Lexeme} {n position : Nat}

-- Whatever a text is, it is read back from between the quotes.
theorem stringBody?_escaped (hq : quote ≠ Text.backslash) (hn : quote ≠ '\n') (value : List Char) :
    stringBody? quote (escaped quote value ++ quote :: rest)
      = some (value, (escaped quote value).length + 1) := by
  induction value
  case nil => exact stringBody?_quote
  case cons c value hi =>
    unfold escaped
    split
    case isTrue h =>
      have hc : c ≠ '\n' := by
        rcases h with rfl | rfl
        · exact hn
        · decide
      rw [List.cons_append, List.cons_append, stringBody?_escape hq hc, hi]
      rfl
    case isFalse h =>
      have ⟨hc, hs⟩ := not_or.mp h
      rw [List.cons_append, stringBody?_plain hc hs, hi]
      rfl

theorem scan_skip : scan taken.length position (taken ++ rest) = scan 0 (position + taken.length) rest := by
  induction taken generalizing position
  case nil             => rfl
  case cons c taken hi =>
    rw [List.length_cons, List.cons_append, scan, hi, Nat.add_right_comm, Nat.add_assoc]

theorem scan_lexeme {ts : List Token} (h : start c (taken ++ rest) = .lexeme l taken.length)
    (hr : scan 0 (position + taken.length + 1) rest = .ok ts) :
    scan 0 position (c :: (taken ++ rest)) = .ok (⟨l, position, taken.length + 1⟩ :: ts) := by
  rw [scan, h]
  refine bind_eq_ok_iff.mpr ⟨ts, ?_, rfl⟩
  rw [scan_skip, Nat.add_right_comm]
  exact hr

theorem scan_blank (h : Text.isBlank c) : scan 0 position (c :: rest) = scan 0 (position + 1) rest := by
  rw [scan, start_eq_blank_iff.mpr h]

theorem scan_written (value : String) (position : Nat) :
    ∃ width, scan 0 position (written value).toList = .ok [⟨.string value, position, width⟩] := by
  let body := escaped Text.doubleQuote value.toList ++ [Text.doubleQuote]
  have hb : stringBody? Text.doubleQuote body = some (value.toList, body.length) := by
    rw [List.length_append]
    exact stringBody?_escaped (by decide) (by decide) value.toList
  have hs : start Text.doubleQuote (body ++ []) = .lexeme (.string value) body.length := by
    rw [List.append_nil, start_string (by decide) hb, String.ofList_toList]
  have hw : (written value).toList = Text.doubleQuote :: (body ++ []) := by
    rw [written, String.toList_ofList, List.append_nil]
  exact ⟨body.length + 1, by rw [hw]; exact scan_lexeme hs rfl⟩

-- A word ends before a blank.
theorem scan_word {word : String} {run : List Char} {ts : List Token} (hw : word.toList = c :: run)
    (hc : isNameStart c) (hr : ∀ d ∈ run, isNameChar d)
    (hs : scan 0 (position + word.length + 1) rest = .ok ts) :
    scan 0 position (word.toList ++ ' ' :: rest) = .ok (⟨.ofWord word, position, word.length⟩ :: ts) := by
  have hb : isNameChar ' ' = false := by decide
  have ht : (run ++ ' ' :: rest).takeWhile isNameChar = run := by
    rw [List.takeWhile_append_of_pos hr, List.takeWhile_cons_of_neg (by simp [hb]), List.append_nil]
  have hl : word.length = run.length + 1 := by rw [← String.length_toList, hw, List.length_cons]
  have hn : start c (run ++ ' ' :: rest) = .lexeme (.ofWord word) run.length := by
    rw [start_word hc, ht, ← hw, String.ofList_toList]
  rw [hl] at hs ⊢
  rw [hw]
  exact scan_lexeme hn ((scan_blank (by decide)).trans hs)

theorem scan_operator {o : Operator} {r : TextRelation} {ts : List Token} (ho : o.textRelation? = some r)
    (hs : scan 0 (position + o.text.length + 1) rest = .ok ts) :
    scan 0 position (o.text.toList ++ ' ' :: rest) = .ok (⟨.operator o, position, o.text.length⟩ :: ts) := by
  have hb (p : Nat) : scan 0 p (' ' :: rest) = scan 0 (p + 1) rest := scan_blank (by decide)
  cases o <;> cases ho
  case eq =>
    show scan 0 position ('=' :: ([] ++ ' ' :: rest)) = _
    exact scan_lexeme rfl ((hb _).trans hs)
  case ne =>
    show scan 0 position ('!' :: (['='] ++ ' ' :: rest)) = _
    exact scan_lexeme rfl ((hb _).trans hs)
  case contains =>
    show scan 0 position ('~' :: ([] ++ ' ' :: rest)) = _
    exact scan_lexeme rfl ((hb _).trans hs)

end Token

-- A comparison of an attribute with a text, as criteria.
def compared (a : TextAttribute) (o : Operator) (value : String) : String :=
  (Attribute.text a).name ++ " " ++ o.text ++ " " ++ Token.written value

variable {a : TextAttribute} {o : Operator} {r : TextRelation}

theorem scan_name (a : TextAttribute) {rest : List Char} {ts : List Token} {position : Nat}
    (hs : Token.scan 0 (position + (Attribute.text a).name.length + 1) rest = .ok ts) :
    Token.scan 0 position ((Attribute.text a).name.toList ++ ' ' :: rest)
      = .ok (⟨.word (Attribute.text a).name, position, (Attribute.text a).name.length⟩ :: ts) := by
  have ⟨c, run, hn, hc, hr, hw⟩ : ∃ c run, (Attribute.text a).name.toList = c :: run ∧
      Token.isNameStart c ∧ run.all Token.isNameChar ∧
      Lexeme.ofWord (Attribute.text a).name = .word (Attribute.text a).name := by
    cases a <;> exact ⟨_, _, rfl, by decide +kernel⟩
  rw [← hw]
  exact Token.scan_word hn hc (List.all_eq_true.mp hr) hs

theorem tokens_compared (ho : o.textRelation? = some r) (value : String) :
    ∃ k l m, tokens (compared a o value) = .ok [k, l, m] ∧ k.lexeme = .word (Attribute.text a).name ∧
      l.lexeme = .operator o ∧ m.lexeme = .string value := by
  have ⟨_, hs⟩ := Token.scan_written value
    (0 + (Attribute.text a).name.length + 1 + o.text.length + 1)
  have h := scan_name a (Token.scan_operator ho hs)
  have ht : (compared a o value).toList = (Attribute.text a).name.toList
      ++ ' ' :: (o.text.toList ++ ' ' :: (Token.written value).toList) := by
    unfold compared
    simp only [String.toList_append, List.append_assoc]
    rfl
  rw [← ht] at h
  exact ⟨_, _, _, h, rfl, rfl, rfl⟩

theorem ofTree_compared (ho : o.textRelation? = some r) (value : String) (position : Nat) :
    Condition.ofTree (.comparison (Attribute.text a).name o (.text value) position)
      = .ok (.text a r value) := by
  have ha : Attribute.ofName? (Attribute.text a).name = some (.text a) := by cases a <;> rfl
  exact Condition.ofComparison_eq_ok_iff.mpr (.text ha ho)

-- A comparison with whatever text is accepted.
theorem compile_compared (ho : o.textRelation? = some r) (value : String) :
    compile (compared a o value) = .ok (.text a r value) := by
  have ⟨k, l, m, ht, hk, hl, hm⟩ := tokens_compared (a := a) ho value
  have hd := Derives.comparison (n := 100) hk hl (v := .text value) (by rw [hm]; exact .string)
  have hn : (Attribute.text a).name.map Char.toLower = (Attribute.text a).name := by
    cases a <;> decide +kernel
  rw [hn] at hd
  exact compile_of_derives ht hd.expression (ofTree_compared ho value k.position)

end LabelPlaylists.Criteria
