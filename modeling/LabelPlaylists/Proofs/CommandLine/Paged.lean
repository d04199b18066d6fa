import LabelPlaylists.CommandLine.Invocation
import LabelPlaylists.Proofs.Result

namespace LabelPlaylists.CommandLine

variable {words : List String} {c d : Command} {g : Given} {limit page : Int}

theorem positive_inv {option text : String} {n : Int} (h : positive option text = .ok n) : 1 ≤ n := by
  unfold positive at h
  dsimp only at h
  split at h
  case h_1 => cases h
  case h_2 m _ =>
    by_cases hm : m < 1
    case pos => rw [if_pos hm] at h; cases h
    case neg =>
      rw [if_neg hm] at h
      cases h
      omega

-- Pages that are asked for are counted from one, and their limit leaves room for a track.
def Command.IsPaged : Command → Prop
  | .tracks _ limit page => 1 ≤ limit ∧ 1 ≤ page
  | _                    => True

theorem isPaged_command {forms : List OptionForm} {read : Given → Except Usage Command}
    (h : command forms words read = .ok c) (hr : ∀ {g c}, read g = .ok c → c.IsPaged) : c.IsPaged := by
  have ⟨g, _, h⟩ := bind_eq_ok_iff.mp h
  split at h
  case isTrue  => cases h; trivial
  case isFalse => exact hr h

theorem isPaged_noMore {arguments : List String} (h : noMore arguments d = .ok c) (hd : d.IsPaged) :
    c.IsPaged := by
  unfold noMore at h
  split at h <;> cases h
  exact hd

theorem isPaged_withName {place : String} {read : String → List String → Except Usage Command}
    (h : withName place g read = .ok c) (hr : ∀ {name more c}, read name more = .ok c → c.IsPaged) :
    c.IsPaged := by
  unfold withName at h
  split at h
  case h_1 => cases h
  case h_2 => exact hr h

theorem isPaged_plainCommand (h : plainCommand d words = .ok c) (hd : d.IsPaged) : c.IsPaged :=
  isPaged_command h fun h => isPaged_noMore h hd

theorem isPaged_withTracks {make : String → List String → Command} (h : withTracks make words = .ok c)
    (hm : ∀ name tracks, (make name tracks).IsPaged) : c.IsPaged := by
  refine isPaged_command h fun h => isPaged_withName h fun {name tracks c} h => ?_
  split at h <;> cases h
  exact hm name tracks

theorem isPaged_tracksCommand (h : tracksCommand words = .ok c) : c.IsPaged := by
  refine isPaged_command h fun {g c} h => ?_
  have ⟨_, _, h⟩ := bind_eq_ok_iff.mp h
  have ⟨limit, hl, h⟩ := bind_eq_ok_iff.mp h
  have ⟨page, hp, h⟩ := bind_eq_ok_iff.mp h
  exact isPaged_noMore h ⟨positive_inv hl, positive_inv hp⟩

theorem isPaged_unknownCommand {name : String} (h : unknownCommand name words = .ok c) : c.IsPaged := by
  unfold unknownCommand at h
  dsimp only at h
  split at h
  case isFalse => cases h
  case isTrue  =>
    have ⟨⟨g, rest⟩, _, h⟩ := bind_eq_ok_iff.mp h
    cases h
    dsimp only
    split <;> trivial

theorem isPaged_unknownLabelCommand {name : String} (h : unknownLabelCommand name words = .ok c) :
    c.IsPaged := by
  unfold unknownLabelCommand at h
  dsimp only at h
  split at h
  case isFalse => cases h
  case isTrue  =>
    have ⟨_, _, h⟩ := bind_eq_ok_iff.mp h
    split at h <;> cases h
    trivial

theorem isPaged_labelCommand (h : labelCommand words = .ok c) : c.IsPaged := by
  unfold labelCommand at h
  split at h
  case isTrue  => cases h
  case isFalse =>
    have ⟨g, _, h⟩ := bind_eq_ok_iff.mp h
    split at h
    case isTrue  => cases h; trivial
    case isFalse =>
      split at h
      case h_1 => cases h
      case h_2 =>
        split at h
        · exact isPaged_plainCommand h trivial
        · exact isPaged_command h fun h => isPaged_withName h fun h => isPaged_noMore h trivial
        · exact isPaged_command h fun h => isPaged_withName h fun h => isPaged_noMore h trivial
        · exact isPaged_withTracks h fun _ _ => trivial
        · exact isPaged_withTracks h fun _ _ => trivial
        · exact isPaged_unknownLabelCommand h

theorem isPaged_ofWords (h : Command.ofWords words = .ok c) : c.IsPaged := by
  unfold Command.ofWords at h
  split at h
  case h_1 => cases h
  case h_2 =>
    split at h
    · exact isPaged_plainCommand h trivial
    · exact isPaged_plainCommand h trivial
    · exact isPaged_plainCommand h trivial
    · exact isPaged_tracksCommand h
    · exact isPaged_command h fun h => isPaged_withName h fun h => isPaged_noMore h trivial
    · exact isPaged_labelCommand h
    · exact isPaged_unknownCommand h

-- Words that ask for a page of tracks.
def AsksForPage (words : List String) (g : Globals) (criteria : Option String) (limit page : Int) : Prop :=
  ∃ rest, globals words = .ok (g, rest) ∧ Command.ofWords rest = .ok (.tracks criteria limit page)

theorem AsksForPage.le {words : List String} {g : Globals} {criteria : Option String}
    (h : AsksForPage words g criteria limit page) : 1 ≤ limit ∧ 1 ≤ page :=
  isPaged_ofWords h.choose_spec.right

-- An option with its value behind it.
theorem ofWords_value {forms : List OptionForm} {mixed : Bool} (form : OptionForm) {name value : String}
    (hd : name ≠ "--") (ho : isOption name) (hs : splitValue name = (name, none))
    (hf : forms.find? (·.name = name) = some form) (hv : form.takesValue) :
    Given.ofWords forms mixed (name :: value :: words)
      = (Given.ofWords forms mixed words).map (Given.addOption form.name value) := by
  rw [Given.ofWords, if_neg hd, ho, hs]
  simp [hf, hv]

-- Without options for all commands.
def plainGlobals : Globals := ⟨none, none, false, none⟩

theorem globals_tracks : globals ("tracks" :: words) = .ok (plainGlobals, "tracks" :: words) := by
  have h : Given.ofWords globalForms false ("tracks" :: words) = .ok { arguments := "tracks" :: words } := by
    rw [Given.ofWords]
    rfl
  unfold globals
  rw [h]
  rfl

def tracksForms : List OptionForm :=
  [{ name := "--criteria" }, { name := "--limit" }, { name := "--page" }, helpForm]

theorem ofWords_limit_page {limitText pageText : String} :
    Given.ofWords tracksForms true ("--limit" :: limitText :: "--page" :: pageText :: words)
      = (Given.ofWords tracksForms true words).map fun g =>
        (g.addOption "--page" pageText).addOption "--limit" limitText := by
  rw [ofWords_value { name := "--limit" } (by decide) (by decide) (by decide) (by decide) rfl]
  rw [ofWords_value { name := "--page" } (by decide) (by decide) (by decide) (by decide) rfl]
  cases Given.ofWords tracksForms true words <;> rfl

theorem tracksCommand_eq {limitText pageText : String} {criteria : Option String}
    (hg : Given.ofWords tracksForms true words = .ok
      { options := ("--limit", limitText) :: ("--page", pageText) :: criteria.toList.map (Prod.mk "--criteria") })
    (hl : positive "--limit" limitText = .ok limit) (hp : positive "--page" pageText = .ok page) :
    tracksCommand words = .ok (.tracks criteria limit page) := by
  unfold tracksCommand command
  rw [show _ ++ [helpForm] = tracksForms from rfl, hg]
  cases criteria <;>
    simp [bind, Except.bind, Given.has, Given.order, Given.value?, checkNumbers, noMore, hl, hp]

theorem asksForPage_words {limitText pageText : String} (hl : positive "--limit" limitText = .ok limit)
    (hp : positive "--page" pageText = .ok page) :
    AsksForPage ["tracks", "--limit", limitText, "--page", pageText] plainGlobals none limit page := by
  refine ⟨_, globals_tracks, tracksCommand_eq ?_ hl hp⟩
  rw [ofWords_limit_page, Given.ofWords]
  rfl

theorem asksForPage_criteria {limitText pageText criteria : String}
    (hl : positive "--limit" limitText = .ok limit) (hp : positive "--page" pageText = .ok page) :
    AsksForPage ["tracks", "--limit", limitText, "--page", pageText, "--criteria", criteria] plainGlobals
      (some criteria) limit page := by
  refine ⟨_, globals_tracks, tracksCommand_eq ?_ hl hp⟩
  rw [ofWords_limit_page]
  rw [ofWords_value { name := "--criteria" } (by decide) (by decide) (by decide) (by decide) rfl]
  rw [Given.ofWords]
  rfl

end LabelPlaylists.CommandLine
