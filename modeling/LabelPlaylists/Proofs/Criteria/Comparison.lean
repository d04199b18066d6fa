import LabelPlaylists.Criteria.Condition

namespace LabelPlaylists.Criteria

namespace Condition

-- What an accepted comparison of a name with a literal comes to.
inductive Comparison (name : String) (o : Operator) : Literal → Condition → Prop
  | text {a r s} :
    Attribute.ofName? name = some (.text a) → o.textRelation? = some r →
    Comparison name o (.text s) (.text a r s)
  | same {b} : Attribute.ofName? name = some .explicit → o = .eq → Comparison name o (.flag b) (.explicit true b)
  | differs {b} : Attribute.ofName? name = some .explicit → o = .ne → Comparison name o (.flag b) (.explicit false b)
  | day {a r s d} :
    Attribute.ofName? name = some (.day a) → o.relation? = some r → Day.ofIso? s = some d →
    Comparison name o (.text s) (.day a r d.text)
  | year {r n} :
    Attribute.ofName? name = some .year → o.relation? = some r → IsStorable n →
    Comparison name o (.number n) (.year r n)

theorem ofComparison_eq_ok_iff {name : String} {o : Operator} {v : Literal} {position : Nat} {c : Condition} :
    ofComparison name o v position = .ok c ↔ Comparison name o v c := by
  unfold ofComparison
  constructor
  case mp =>
    intro h
    cases ha : Attribute.ofName? name <;> rw [ha] at h
    case none => cases h
    case some a =>
      cases a <;> dsimp only at h
      case text a =>
        cases hr : o.textRelation? <;> rw [hr] at h <;> cases v <;> cases h
        exact .text ha hr
      case explicit =>
        cases o <;> cases v <;> cases h
        case eq.flag => exact .same ha rfl
        case ne.flag => exact .differs ha rfl
      case day a =>
        cases hr : o.relation? <;> rw [hr] at h <;> cases v <;> try cases h
        case some.text r s =>
          dsimp only at h
          cases hd : Day.ofIso? s <;> rw [hd] at h <;> cases h
          exact .day ha hr hd
      case year =>
        cases hr : o.relation? <;> rw [hr] at h <;> cases v <;> try cases h
        case some.number r n =>
          dsimp only at h
          split at h <;> cases h
          case isTrue hn => exact .year ha hr hn
  case mpr =>
    intro h
    cases h
    case text ha hr    => simp only [ha, hr]
    case same ha ho    => simp only [ha, ho, decide_true]
    case differs ha ho => subst ho; simp only [ha]; rfl
    case day ha hr hd  => simp only [ha, hr, hd]
    case year ha hr hn => simp only [ha, hr, if_pos hn]

end Condition

end LabelPlaylists.Criteria
