import SpriteScript.Problem

-- What is said of the names of resources is said of nothing else, so that no report of
-- something else stands in for it.
namespace SpriteScript.Problem

-- The name of a resource is empty, or there is no such resource.
def isOfName : Problem → Bool
  | resourceMissing .. | resourceUnnamed _ => true
  | _ => false

-- The first two characters of a text, and the last two from the end.
def opening (text : String) : List Char := text.toList.take 2

def closing (text : String) : List Char := text.toList.reverse.take 2

theorem opening_append {front : String} (h : 2 ≤ front.toList.length) (rest : String) :
    opening (front ++ rest) = opening front := by
  rw [opening, String.toList_append, List.take_append_of_le_length h, opening]

theorem closing_append {back : String} (h : 2 ≤ back.toList.length) (rest : String) :
    closing (rest ++ back) = closing back := by
  rw [closing, String.toList_append, List.reverse_append,
    List.take_append_of_le_length (by simpa using h), closing]

-- How texts open that have the word for a kind of resource in front.
def kindOpenings : List (List Char) := [['b', 'a'], ['s', 'o'], ['s', 'p'], ['w', 'i']]

theorem opening_word (kind : ResourceKind) (text : String) : opening (kind.word ++ text) ∈ kindOpenings := by
  cases kind <;> simp [opening, ResourceKind.word, kindOpenings]

theorem closing_resourceMissing (kind : ResourceKind) (name : String) :
    closing (resourceMissing kind name).message = ['d', 'n'] := by
  delta message
  simp [closing]

theorem closing_resourceUnnamed (kind : ResourceKind) :
    closing (resourceUnnamed kind).message = ['y', 't'] := by
  delta message
  simp [closing]

theorem opening_fault (fault : Syntax.Fault) : opening fault.message ∉ kindOpenings := by
  cases fault <;> simp [opening, kindOpenings, Syntax.Fault.message]

-- Every other error opens or closes in another way. The texts of assets may be anything.
theorem apart_of_other {p : Problem} (hname : p.isOfName = false) (hassets : ∀ text, p ≠ .assets text)
    (herror : p.severity = .error) :
    opening p.message ∉ kindOpenings ∨ closing p.message ∉ [['d', 'n'], ['y', 't']] := by
  cases p
  case syntaxError fault => exact .inl (opening_fault fault)
  case assets text => exact absurd rfl (hassets text)
  case resourceMissing => cases hname
  case resourceUnnamed => cases hname
  case misplacedField => cases herror
  case redeclared | duplicateMethod | notType | notConstant | notUsed | builtinUncalled | noValue |
      typeAsValue =>
    right
    delta message
    dsimp only
    rw [closing_append (by simp)]
    simp [closing]
  case noMember =>
    right
    delta message
    simp [closing]
  case lenCount count =>
    left
    delta message
    dsimp only
    split <;> simp [opening, kindOpenings]
  all_goals
    left
    delta message
    dsimp only
    first
      | simp only [String.append_assoc]; rw [opening_append (by simp)]; simp [opening, kindOpenings]
      | simp [opening, kindOpenings]

theorem opening_of_isOfName {p : Problem} (h : p.isOfName = true) : opening p.message ∈ kindOpenings := by
  cases p
  case resourceMissing kind name =>
    delta message
    dsimp only
    rw [String.append_assoc, String.append_assoc]
    exact opening_word kind _
  case resourceUnnamed kind =>
    delta message
    exact opening_word kind _
  all_goals cases h

theorem closing_of_isOfName {p : Problem} (h : p.isOfName = true) :
    p.code = "E0060" ∧ closing p.message = ['d', 'n'] ∨ p.code = "E0061" ∧
    closing p.message = ['y', 't'] := by
  cases p
  case resourceMissing kind name => exact .inl ⟨rfl, closing_resourceMissing kind name⟩
  case resourceUnnamed kind => exact .inr ⟨rfl, closing_resourceUnnamed kind⟩
  all_goals cases h

theorem isOfName_of_code {p : Problem} (h : p.code = "E0060" ∨ p.code = "E0061") : p.isOfName = true := by
  cases p <;> first | rfl | (delta code at h; simp at h)

theorem misplaced_of_warning {p : Problem} (h : p.severity = .warning) :
    ∃ kind name entry, p = .misplacedField kind name entry := by
  cases p <;> first | exact ⟨_, _, _, rfl⟩ | cases h

theorem misplaced_of_code {p : Problem} (h : p.code = "W0001") :
    ∃ kind name entry, p = .misplacedField kind name entry := by
  cases p <;> first | exact ⟨_, _, _, rfl⟩ | (delta code at h; simp at h)

-- What is said decides on the code.
theorem code_eq_of_message_eq {p q : Problem} (hp : p.isOfName = true) (hassets : ∀ text, q ≠ .assets text)
    (hseverity : q.severity = p.severity) (hmessage : q.message = p.message) : q.code = p.code := by
  have hopening := opening_of_isOfName hp
  have hclosing := closing_of_isOfName hp
  rw [← hmessage] at hopening hclosing
  cases hq : q.isOfName with
  | true =>
      rcases hclosing with ⟨hcode, hclosing⟩ | ⟨hcode, hclosing⟩ <;>
        rcases closing_of_isOfName hq with ⟨hcode', hclosing'⟩ | ⟨hcode', hclosing'⟩ <;> simp_all
  | false =>
      have herror : p.severity = .error := by cases p <;> first | rfl | cases hp
      rcases apart_of_other hq hassets (hseverity.trans herror) with hapart | hapart
      · exact absurd hopening hapart
      · rcases hclosing with ⟨-, hclosing⟩ | ⟨-, hclosing⟩ <;> simp [hclosing] at hapart

end SpriteScript.Problem
