import LabelPlaylists.Account.Authorization
import LabelPlaylists.Proofs.Text.Blank
import LabelPlaylists.Proofs.Web.Url

namespace LabelPlaylists.Authorization

open Web (FirstValue)

variable {pasted state c : String}

/-! ## The state of a redirect -/

-- The form in a pasted URL.
def answer (pasted : String) : List Char := Web.marked (Web.cleaned (Text.trimmed pasted))

-- A pasted URL can be read if its network location is none that is refused.
def isReadable (pasted : String) : Bool := Web.isLocation (Web.location (Text.trimmed pasted))

theorem code_eq (h : '?' ∈ pasted.toList) :
    code pasted state =
      if isReadable pasted then codeOfFields (Web.formFields (answer pasted)) state else .error .badUrl := by
  have hm : '?' ∈ (Text.trimmed pasted).toList := by
    rw [Text.trimmed, String.toList_ofList]
    exact Text.mem_trim h (by decide)
  have hc : ¬(!(Text.trimmed pasted).toList.contains '?') = true := by
    simpa using hm
  unfold code isReadable answer
  rw [if_neg hc, Web.query?_eq]
  by_cases hr : Web.isLocation (Web.location (Text.trimmed pasted)) = true
  case pos => simp only [if_pos hr]
  case neg => simp only [if_neg hr]

-- A code is taken from a form that reports no error, gives a code, and gives no other state.
theorem codeOfFields_eq_ok_iff {form : List Char} :
    codeOfFields (Web.formFields form) state = .ok c ↔
      (∀ v, ¬FirstValue form "error" v) ∧ (∀ v, FirstValue form "state" v → v = state) ∧
        FirstValue form "code" c := by
  simp only [Web.firstValue_iff]
  unfold codeOfFields
  cases Web.fieldValue? (Web.formFields form) "error"
  case some => simp
  case none =>
    have hs : (Web.fieldValue? (Web.formFields form) "state").getD state = state ↔
        ∀ v, Web.fieldValue? (Web.formFields form) "state" = some v → v = state := by
      cases Web.fieldValue? (Web.formFields form) "state" <;> simp
    by_cases h : (Web.fieldValue? (Web.formFields form) "state").getD state = state
    case pos =>
      cases Web.fieldValue? (Web.formFields form) "code" <;> simp [← hs, h]
    case neg => simp [← hs, h]

theorem codeOfFields_ne_badUrl (fields : List (String × String)) (state : String) :
    codeOfFields fields state ≠ .error .badUrl := by
  intro h
  unfold codeOfFields at h
  (repeat' split at h) <;> cases h

-- What comes of a pasted URL.
-- 1. a code is taken if and only if the URL can be read and its form reports no error, gives a code, and gives
--    either the expected state or none at all
-- 2. of a URL that gives no state, the same comes whichever state is expected
-- 3. all else is refused with a message, but a URL that cannot be read breaks the program off
theorem code_eq_ok_iff (h : '?' ∈ pasted.toList) :
    (code pasted state = .ok c ↔
      isReadable pasted ∧ (∀ v, ¬FirstValue (answer pasted) "error" v) ∧
        (∀ v, FirstValue (answer pasted) "state" v → v = state) ∧ FirstValue (answer pasted) "code" c) ∧
    ((∀ v, ¬FirstValue (answer pasted) "state" v) → ∀ other, code pasted other = code pasted state) ∧
    (code pasted state = .error .badUrl ↔ ¬isReadable pasted) := by
  refine ⟨?_, fun hn other => ?_, ?_⟩ <;> rw [code_eq h]
  case refine_1 =>
    split
    case isTrue hr  => simp only [codeOfFields_eq_ok_iff, hr, true_and]
    case isFalse hr => simp [hr]
  case refine_2 =>
    rw [← Web.fieldValue?_eq_none_iff] at hn
    rw [code_eq h]
    simp [codeOfFields, hn]
  case refine_3 =>
    split
    case isTrue hr  => simp [hr, codeOfFields_ne_badUrl]
    case isFalse hr => simp [hr]

-- A redirect without a state.
def stateless : String := "http://127.0.0.1:8888/callback?code=abc"

theorem code_eq_ok_iff_stateless :
    '?' ∈ stateless.toList ∧ (∀ v, ¬FirstValue (answer stateless) "state" v) ∧
      FirstValue (answer stateless) "code" "abc" ∧ ∀ state, code stateless state = .ok "abc" := by
  have hq : '?' ∈ stateless.toList := by decide +kernel
  have hs : ∀ v, ¬FirstValue (answer stateless) "state" v :=
    Web.fieldValue?_eq_none_iff.mp (by decide +kernel)
  have he : ∀ v, ¬FirstValue (answer stateless) "error" v :=
    Web.fieldValue?_eq_none_iff.mp (by decide +kernel)
  have hc : FirstValue (answer stateless) "code" "abc" := Web.firstValue_iff.mpr (by decide +kernel)
  refine ⟨hq, hs, hc, fun state => ?_⟩
  exact (code_eq_ok_iff hq).left.mpr ⟨by decide +kernel, he, fun v hv => absurd hv (hs v), hc⟩

/-! ## URLs that have been written -/

def callback : String := "http://127.0.0.1:8888/callback"

theorem plain_callback : Web.Plain callback "http".toList "127.0.0.1:8888".toList "callback".toList := by
  constructor <;> decide +kernel

theorem plain_authorizeEndpoint :
    Web.Plain authorizeEndpoint "https".toList "accounts.spotify.com".toList "authorize".toList := by
  constructor <;> decide +kernel

-- A redirect with blanks around it gives what its fields say.
theorem code_form {front back : String} {fields : List (String × String)} (state : String)
    (hf : ∀ c ∈ front.toList, Text.isBlank c) (hb : ∀ c ∈ back.toList, Text.isBlank c) (hv : ∀ f ∈ fields, f.2 ≠ "") :
    code (front ++ (callback ++ "?" ++ Web.formText fields) ++ back) state = codeOfFields fields state := by
  have hu : ∀ c ∈ (callback ++ "?" ++ Web.formText fields).toList, ¬Text.isBlank c :=
    fun c hc => Web.not_isBlank_of_isVisible (plain_callback.isVisible fields c hc)
  have ht := Text.trimmed_surrounded hf hb hu (by simp)
  have hq : (!(callback ++ "?" ++ Web.formText fields).toList.contains '?') = false := by simp
  unfold code
  dsimp only
  rw [ht, hq, plain_callback.query?_eq]
  exact congrArg (codeOfFields · state) (Web.formFields_formText hv)

-- What has been written into the URLs of a login is read from them again.
-- 1. the query of the URL that asks for access holds the given values, the fixed ones, and nothing else
-- 2. a redirect with a code and a state, in whichever order and with blanks around it, gives the code for this
--    state, and is refused for every other one
theorem urls_read_back {clientId redirectUri state code : String} (hi : clientId ≠ "") (hr : redirectUri ≠ "")
    (hs : state ≠ "") (hc : code ≠ "") :
    (∃ q, Web.query? (url clientId redirectUri state) = some q ∧
      Web.formFields q =
        [("client_id", clientId), ("response_type", "code"), ("redirect_uri", redirectUri),
          ("scope", "user-library-read playlist-modify-private playlist-modify-public"), ("state", state),
          ("show_dialog", "true")]) ∧
    ∀ fields ∈ [[("code", code), ("state", state)], [("state", state), ("code", code)]],
      ∀ front back : String, (∀ c ∈ front.toList, Text.isBlank c) → (∀ c ∈ back.toList, Text.isBlank c) →
        let pasted := front ++ ("http://127.0.0.1:8888/callback" ++ "?" ++ Web.formText fields) ++ back
        Authorization.code pasted state = .ok code ∧
          ∀ other, other ≠ state → Authorization.code pasted other = .error .stateMismatch := by
  refine ⟨⟨_, plain_authorizeEndpoint.query?_eq _, Web.formFields_formText ?_⟩, fun fields hm front back hf hb => ?_⟩
  case refine_1 => simp [fields, hi, hr, hs, scope]
  case refine_2 =>
    have hv : ∀ f ∈ fields, f.2 ≠ "" := by
      simp only [List.mem_cons, List.not_mem_nil, or_false] at hm
      rcases hm with rfl | rfl <;> simp [hc, hs]
    have hcode (expected : String) := code_form expected hf hb hv
    simp only [List.mem_cons, List.not_mem_nil, or_false] at hm
    refine ⟨(hcode state).trans ?_, fun other hn => (hcode other).trans ?_⟩ <;> rcases hm with rfl | rfl
    case refine_1.inl | refine_1.inr => simp [codeOfFields, Web.fieldValue?]
    case refine_2.inl | refine_2.inr => simp [codeOfFields, Web.fieldValue?, Ne.symm hn]

theorem urls_read_back_hostile :
    let clientId := "a&b=c d"
    let redirectUri := "http://x/?q=%41+#f"
    let state := "s+t%26\n\u2028"
    let c := "ä\"\x27;=&\r\n"
    clientId ≠ "" ∧ redirectUri ≠ "" ∧ state ≠ "" ∧ c ≠ "" ∧
      (∃ q, Web.query? (url clientId redirectUri state) = some q ∧ ("state", state) ∈ Web.formFields q) ∧
      code ("\t " ++ (callback ++ "?" ++ Web.formText [("state", state), ("code", c)]) ++ "\n") state = .ok c := by
  intro clientId redirectUri state c
  have hi : clientId ≠ "" := by decide
  have hr : redirectUri ≠ "" := by decide
  have hs : state ≠ "" := by decide
  have hc : c ≠ "" := by decide
  have ⟨⟨q, hq, hf⟩, h⟩ := urls_read_back hi hr hs hc
  refine ⟨hi, hr, hs, hc, ⟨q, hq, hf ▸ by simp⟩, ?_⟩
  exact (h _ (List.mem_cons_of_mem _ List.mem_cons_self) "\t " "\n" (List.all_eq_true.mp (by decide))
    (List.all_eq_true.mp (by decide))).left

end LabelPlaylists.Authorization
