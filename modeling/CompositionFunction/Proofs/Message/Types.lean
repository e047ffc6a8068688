import CompositionFunction.Proofs.Message.Lawful
import CompositionFunction.Proofs.Schema.Nesting

/-!
# Types of messages

What is proved of shapes holds for the shape of every type of message.

* `MessageType.shape_lawful` : the shape of every type is lawful.
* `MessageType.reserve_le` : the defaults of no type nest deeper than a text may.
* `BodyType` : the types whose values are written as objects.
-/

set_option autoImplicit false

namespace CompositionFunction

open Schema

/-- The types of messages and of their parts. -/
inductive MessageType where
  | request
  | response
  | state
  | resource
  | resources
  | requestMeta
  | responseMeta
  | requirements
  | resourceSelector
  | selection
  | matchLabels
  | functionResult
  | severity
  | ready
deriving DecidableEq, Repr

namespace MessageType

/-- The messages of a type. -/
def Value : MessageType → Type
  | request => Request
  | response => Response
  | state => State
  | resource => Resource
  | resources => Resources
  | requestMeta => RequestMeta
  | responseMeta => ResponseMeta
  | requirements => Requirements
  | resourceSelector => ResourceSelector
  | selection => Match
  | matchLabels => MatchLabels
  | functionResult => FunctionResult
  | severity => Severity
  | ready => Ready

/-- How messages of a type stand in documents. -/
def shape : (T : MessageType) → Shape T.Value
  | request => Request.shape
  | response => Response.shape
  | state => State.shape
  | resource => Resource.shape
  | resources => Resources.shape
  | requestMeta => RequestMeta.shape
  | responseMeta => ResponseMeta.shape
  | requirements => Requirements.shape
  | resourceSelector => ResourceSelector.shape
  | selection => Match.shape
  | matchLabels => MatchLabels.shape
  | functionResult => FunctionResult.shape
  | severity => Severity.shape
  | ready => Ready.shape

theorem shape_lawful : (T : MessageType) → T.shape.Lawful
  | request => Request.shape_lawful
  | response => Response.shape_lawful
  | state => State.shape_lawful
  | resource => Resource.shape_lawful
  | resources => Resources.shape_lawful
  | requestMeta => RequestMeta.shape_lawful
  | responseMeta => ResponseMeta.shape_lawful
  | requirements => Requirements.shape_lawful
  | resourceSelector => ResourceSelector.shape_lawful
  | selection => Match.shape_lawful
  | matchLabels => MatchLabels.shape_lawful
  | functionResult => FunctionResult.shape_lawful
  | severity => Severity.shape_lawful
  | ready => Ready.shape_lawful

/-- The defaults of messages nest far less deep than a text may. -/
theorem reserve_le (T : MessageType) : T.shape.reserve ≤ 127 := by
  cases T <;> decide

/-- The values of the type are written as objects. -/
def isObject : MessageType → Bool
  | severity | ready => false
  | _ => true

theorem value_isObject {T : MessageType} (h : T.isObject = true) (m : T.Value) :
    ∃ body, T.shape.value m = .object body := by
  cases T with
  | severity | ready => cases h
  | selection => cases m <;> exact ⟨_, rfl⟩
  | resourceSelector =>
    obtain ⟨_, _, selection⟩ := m
    cases selection <;> exact ⟨_, rfl⟩
  | _ => exact ⟨_, rfl⟩

end MessageType

/-- The types whose values are written as objects. -/
inductive BodyType where
  | message (T : MessageType) (isObject : T.isObject = true)
  | groupVersionKind
  | unstructured
  | labels

namespace BodyType

/-- The values of a type. -/
def Value : BodyType → Type
  | message T _ => T.Value
  | groupVersionKind => GroupVersionKind
  | unstructured => Body
  | labels => StringMap String

/-- How values of a type stand in documents. -/
def shape : (T : BodyType) → Shape T.Value
  | message T _ => T.shape
  | groupVersionKind => GroupVersionKind.shape
  | unstructured => .object
  | labels => .map .text

theorem shape_lawful : (T : BodyType) → T.shape.Lawful
  | message T _ => T.shape_lawful
  | groupVersionKind => GroupVersionKind.shape_lawful
  | unstructured => trivial
  | labels => trivial

theorem value_isObject : (T : BodyType) → (m : T.Value) → ∃ body, T.shape.value m = .object body
  | message _ isObject, m => MessageType.value_isObject isObject m
  | groupVersionKind, _ => ⟨_, rfl⟩
  | unstructured, _ => ⟨_, rfl⟩
  | labels, _ => ⟨_, rfl⟩

end BodyType

end CompositionFunction
