import AscendAI.Memory.Message
import AscendAI.Provider.ProviderResolution

/-!
# ChatExecutor

One prompt becomes a call to the model: the system messages, the history and the words of the user. A call
that the cache of the provider has spoiled is made a second time without the cache. What the model answers to
the first and to the second call comes from outside.
-/

namespace AscendAI.Chat
open JavaString Memory Provider

/-- The exceptions that the handler of the service tells apart. The last two are no `RuntimeException`. -/
inductive ExceptionKind where
  | incompatibleEmbedding
  | unsupportedFileType
  | documentRouting
  | ingestion
  | aiGeneration
  | nonTransientAi
  | illegalArgument
  | otherRuntime
  | checked
  | error
  deriving DecidableEq

def ExceptionKind.isRuntime : ExceptionKind → Bool
  | .checked => false
  | .error => false
  | _ => true

/-- What is thrown, with its message. -/
structure Thrown where
  kind : ExceptionKind
  message : Option String
  deriving DecidableEq

def Thrown.isRuntime (e : Thrown) : Bool := e.kind.isRuntime

structure AssembledSystemMessages where
  staticPrefix : String
  dynamicSuffix : String

def AssembledSystemMessages.hasDynamic (s : AssembledSystemMessages) : Bool := hasText (some s.dynamicSuffix)

/-- `ChatOptions`: the model, and whether the system messages are marked for the cache of the provider. -/
structure ChatOptions where
  model : Option String
  cachesSystem : Bool
  deriving DecidableEq

/-- An uploaded file. Its content may not be readable. -/
structure MultipartFile where
  bytes : List UInt8
  contentType : Option String
  originalFilename : Option String
  readable : Bool

def MultipartFile.isEmpty (file : MultipartFile) : Bool := file.bytes.isEmpty

/-- What goes to the model: `defaultModel` is set for the client and `options` for the prompt. -/
structure ModelCall where
  chatModel : ChatModel
  defaultModel : Option String
  options : Option ChatOptions
  messages : List Message
  userText : String
  image : Option String
  userId : String

/-- The output of a generation: its text and the names of the tools that it calls. -/
structure AssistantOutput where
  text : Option String
  toolCalls : List String

/-- The generations, each with its output if it has one. -/
structure ChatResponse where
  results : Option (List (Option AssistantOutput))

structure AiResponse where
  content : String
  toolsUsed : List String
  deriving DecidableEq

/-! ### The strategies of the prompt cache -/

def withModel (model : Option String) : Option ChatOptions :=
  if hasText model then some ⟨model, false⟩ else none

def buildOptions (model : Option String) : PromptCacheStrategy → Option ChatOptions
  | .anthropic => some ⟨if hasText model then model else none, true⟩
  | .openAi _ => withModel model
  | .noop _ => withModel model

def isCacheConfigError (locale : JavaLocale) (message : Option String) : PromptCacheStrategy → Bool
  | .anthropic =>
    match message with
    | none => false
    | some msg =>
      let lower := locale.toLowerCase msg
      contains lower "cache_control" || contains lower "cache-control" ||
        (contains lower "400" && contains lower "cache")
  | .openAi _ => false
  | .noop _ => false

/-! ### Images -/

def extractExtension (locale : JavaLocale) (filename : String) : String :=
  if '.' ∉ filename.toList ∨ filename.toList.getLast? = some '.' then ""
  else locale.toLowerCase (afterLast filename '.')

def mimeTypeForExtension (locale : JavaLocale) (filename : Option String) : Option String :=
  match filename with
  | none => none
  | some name =>
    if !hasText (some name) then none
    else
      match extractExtension locale name with
      | "jpg" => some "image/jpeg"
      | "jpeg" => some "image/jpeg"
      | "png" => some "image/png"
      | "webp" => some "image/webp"
      | "gif" => some "image/gif"
      | _ => none

/-- `valueOf` is Spring's `MimeType.valueOf`, which may reject its text. -/
def resolveImageMimeType (locale : JavaLocale) (valueOf : String → Option String) (image : MultipartFile) : String :=
  let declared := image.contentType.bind fun contentType =>
    if hasText (some contentType) && contains contentType "/" &&
        !equalsIgnoreCase "application/octet-stream" contentType then valueOf contentType
    else none
  (declared.or (mimeTypeForExtension locale image.originalFilename)).getD "image/png"

/-! ### The answer -/

/-- `resolveContent`: the text of the last generation whose text is not blank. -/
def resolveContent (response : ChatResponse) : String :=
  (((response.results.getD []).reverse.findSome? fun generation =>
    (generation.bind AssistantOutput.text).filter fun text => hasText (some text))).getD ""

/-- `extractToolsUsed`: without a first generation the exception of the way there is caught. -/
def extractToolsUsed (response : ChatResponse) : List String :=
  (((response.results.getD []).head?.bind id).map AssistantOutput.toolCalls).getD [] |>.eraseDups

/-! ### Execution -/

/-- The agent with its configuration. -/
structure Agent where
  cfg : AgentProperties
  mimeTypeValueOf : String → Option String

/-- A question to a model. -/
structure Question where
  userId : String
  systemMessages : AssembledSystemMessages
  userText : String
  history : List Message
  image : Option MultipartFile
  provider : Option String
  model : Option String

/-- The calls that were made, and the answer or what was thrown. -/
structure Executed where
  calls : List ModelCall
  result : Except Thrown AiResponse

section Execute

variable (agent : Agent) (q : Question)

/-- `allMessages` of `invoke`. -/
def allMessages : List Message :=
  ⟨.system, q.systemMessages.staticPrefix⟩ ::
    ((if q.systemMessages.hasDynamic then [⟨.system, q.systemMessages.dynamicSuffix⟩] else []) ++ q.history)

/-- `invoke` up to the call: the model is looked up and the image is opened. -/
def prepareCall (options : Option ChatOptions) : Except Thrown ModelCall :=
  match resolveChatModel agent.cfg q.provider with
  | .error message => .error ⟨.illegalArgument, some message⟩
  | .ok chatModel =>
    let call : ModelCall := {
      chatModel := chatModel
      defaultModel := if options.isNone && hasText q.model then q.model else none
      options := options
      messages := allMessages q
      userText := q.userText
      image := none
      userId := q.userId }
    match q.image with
    | none => .ok call
    | some image =>
      if image.isEmpty then .ok call
      else if !image.readable then .error ⟨.aiGeneration, some "Failed to process image upload"⟩
      else .ok { call with image := some (resolveImageMimeType agent.cfg.locale agent.mimeTypeValueOf image) }

/-- `invoke` with what the model answers to the call. -/
def invoke (options : Option ChatOptions) (answer : ModelCall → Except Thrown (Option ChatResponse)) :
    List ModelCall × Except Thrown (Option ChatResponse) :=
  match prepareCall agent q options with
  | .error e => ([], .error e)
  | .ok call => ([call], answer call)

def finish (calls : List ModelCall) : Except Thrown (Option ChatResponse) → Executed
  | .error e => ⟨calls, .error e⟩
  | .ok none => ⟨calls, .error ⟨.aiGeneration, some "Received null response from ChatClient"⟩⟩
  | .ok (some response) => ⟨calls, .ok ⟨resolveContent response, extractToolsUsed response⟩⟩

/-- `answer n` is what the model answers to the call with the number `n`. -/
def execute (answer : ℕ → ModelCall → Except Thrown (Option ChatResponse)) : Executed :=
  let strategy := resolveCacheStrategy agent.cfg q.provider
  let first := invoke agent q (buildOptions q.model strategy) (answer 0)
  match first.2 with
  | .ok response => finish first.1 (.ok response)
  | .error e =>
    if !(e.isRuntime && isCacheConfigError agent.cfg.locale e.message strategy) then ⟨first.1, .error e⟩
    else
      let second := invoke agent q (withModel q.model) (answer 1)
      finish (first.1 ++ second.1) second.2

end Execute

/-! ### The calls of one question -/

section Calls

variable {agent : Agent} {q : Question} {options options' : Option ChatOptions}

/-- What of a call does not depend on its options. -/
structure Asks (q : Question) (call : ModelCall) : Prop where
  messages : call.messages = allMessages q
  userText : call.userText = q.userText
  userId : call.userId = q.userId

lemma asks_of_prepareCall {call : ModelCall} (h : prepareCall agent q options = .ok call) :
    Asks q call ∧ call.options = options := by
  simp only [prepareCall] at h
  split at h
  · cases h
  · split at h
    · obtain rfl := Except.ok.inj h
      exact ⟨⟨rfl, rfl, rfl⟩, rfl⟩
    · split at h
      · obtain rfl := Except.ok.inj h
        exact ⟨⟨rfl, rfl, rfl⟩, rfl⟩
      · split at h
        · cases h
        · obtain rfl := Except.ok.inj h
          exact ⟨⟨rfl, rfl, rfl⟩, rfl⟩

/-- The options decide nothing about whether a call can be made. -/
lemma prepareCall_error {e : Thrown} (h : prepareCall agent q options = .error e) (options' : Option ChatOptions) :
    prepareCall agent q options' = .error e := by
  simp only [prepareCall] at h ⊢
  split at h
  · exact h
  · split at h
    · cases h
    · split_ifs at h ⊢
      exact h

/-- What a question makes of the answer to its last call. -/
def answered (answer : Except Thrown (Option ChatResponse)) : Except Thrown AiResponse := (finish [] answer).result

lemma finish_eq (calls : List ModelCall) (answer : Except Thrown (Option ChatResponse)) :
    finish calls answer = ⟨calls, answered answer⟩ := by
  cases answer with
  | error e => rfl
  | ok response => cases response <;> rfl

lemma withModel_cachesSystem {model : Option String} {o : ChatOptions} (h : withModel model = some o) :
    o.cachesSystem = false := by
  rw [withModel] at h
  split_ifs at h
  obtain rfl := Option.some.inj h
  rfl

/-- The exception is one that the strategy of the provider blames on its cache. -/
def BlamesCache (agent : Agent) (q : Question) (e : Thrown) : Prop :=
  e.isRuntime = true ∧
    isCacheConfigError agent.cfg.locale e.message (resolveCacheStrategy agent.cfg q.provider) = true

end Calls

end AscendAI.Chat
