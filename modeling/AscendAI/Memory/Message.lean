import AscendAI.Lib.JavaString

/-!
# Chat messages

The messages of a conversation and the record of role and content in which both backends
store them. The JSON of that record is written and read by the same mapper, so a stored
element is the record itself.
-/

namespace AscendAI.Memory
open JavaString

inductive MessageType where
  | user
  | assistant
  | system
  | tool
  deriving DecidableEq, Repr

def MessageType.getValue : MessageType → String
  | .user => "user"
  | .assistant => "assistant"
  | .system => "system"
  | .tool => "tool"

structure Message where
  messageType : MessageType
  text : String
  deriving DecidableEq, Repr

structure MessageDto where
  role : String
  content : String
  deriving DecidableEq, Repr

/-- The record under which `add` stores a message. -/
def toDto (message : Message) : MessageDto := ⟨message.messageType.getValue, message.text⟩

/-- A role that is none of the three is read back as a user message. -/
def createMessage (role content : String) : Message :=
  if equalsIgnoreCase MessageType.user.getValue role then ⟨.user, content⟩
  else if equalsIgnoreCase MessageType.assistant.getValue role then ⟨.assistant, content⟩
  else if equalsIgnoreCase MessageType.system.getValue role then ⟨.system, content⟩
  else ⟨.user, content⟩

def mapDtoToMessage (dto : MessageDto) : Message := createMessage dto.role dto.content

/-- What `get` makes of a stored message. -/
def restored (message : Message) : Message := mapDtoToMessage (toDto message)

lemma equalsIgnoreCase_getValue (t t' : MessageType) :
    equalsIgnoreCase t.getValue t'.getValue = decide (t = t') := by
  cases t <;> cases t' <;> decide

lemma restored_eq (message : Message) :
    restored message = if message.messageType = .tool then ⟨.user, message.text⟩ else message := by
  obtain ⟨messageType, text⟩ := message
  cases messageType <;>
    simp [restored, mapDtoToMessage, toDto, createMessage, equalsIgnoreCase_getValue]

/-- Only tool messages change on their way through the store. -/
lemma restored_eq_self_iff (message : Message) :
    restored message = message ↔ message.messageType ≠ .tool := by
  rw [restored_eq]
  split
  · rename_i h
    simp only [h, ne_eq, not_true_eq_false, iff_false]
    intro heq
    have htype := congrArg Message.messageType heq
    rw [h] at htype
    cases htype
  · rename_i h
    simp [h]

lemma restored_ne_tool (message : Message) : (restored message).messageType ≠ .tool := by
  rw [restored_eq]
  split
  · simp
  · assumption

end AscendAI.Memory
