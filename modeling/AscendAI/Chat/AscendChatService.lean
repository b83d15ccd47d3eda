import AscendAI.Chat.ChatExecutor
import AscendAI.Memory.Conversations
import AscendAI.Provider.VisionGlobs
import AscendAI.Rag.PresignedSources

/-!
# AscendChatService

A prompt from the controller to its answer: the system messages and the words of the user are assembled, the history
is loaded, the model is asked, the exchange is stored and a compaction is dispatched. The turns of all users overlap.
A turn loads its history at once and stores its exchange at once; between the two any other turn, compaction or
expiry may come. What the other services answer in a turn comes from outside.
-/

namespace AscendAI.Chat
open JavaString Memory Provider Rag

/-! ### The handler of exceptions -/

structure ApiError where
  status : ℕ
  error : String
  message : Option String
  deriving DecidableEq

def extractHttpStatus (message : Option String) : ℕ × String :=
  if message.any (startsWith · "401") then (502, "Bad Gateway")
  else if message.any (startsWith · "429") then (429, "Too Many Requests")
  else (502, "Bad Gateway")

def sanitizeProviderError : Option String → String
  | none => "AI provider returned an error"
  | some message =>
    let jsonStart := message.toList.idxOf '\x7b'
    if 0 < jsonStart ∧ '\x7b' ∈ message.toList then
      "AI provider error: " ++ trim (String.ofList (message.toList.take jsonStart))
    else "AI provider error: " ++ message

/-- `GlobalExceptionHandler`, without the time of its answer. -/
def handleException (e : Thrown) : ApiError :=
  match e.kind with
  | .incompatibleEmbedding => ⟨400, "Bad Request", e.message⟩
  | .unsupportedFileType => ⟨400, "Bad Request", e.message⟩
  | .documentRouting => ⟨422, "Unprocessable Entity", e.message⟩
  | .ingestion => ⟨502, "Bad Gateway", e.message⟩
  | .aiGeneration => ⟨500, "Internal Server Error", e.message⟩
  | .nonTransientAi =>
    let status := extractHttpStatus e.message
    ⟨status.1, status.2, some (sanitizeProviderError e.message)⟩
  | .illegalArgument => ⟨400, "Bad Request", e.message⟩
  | .otherRuntime => ⟨500, "Internal Server Error", some "An unexpected error occurred. Check server logs for details."⟩
  | .checked => ⟨500, "Internal Server Error", some "An unexpected error occurred. Check server logs for details."⟩
  | .error => ⟨500, "Internal Server Error", some "An unexpected error occurred. Check server logs for details."⟩

/-! ### The request -/

structure PromptRequest where
  prompt : String
  image : Option MultipartFile
  document : Option MultipartFile
  provider : Option String
  model : Option String
  embeddingProvider : Option String
  attachSources : Option Bool
  compactionProvider : Option String
  compactionModel : Option String
  userIdHeader : Option String

structure ChatConfig where
  agent : Agent
  vision : VisionCapabilityResolver
  deployment : Deployment
  baseSystemPrompt : String
  searchLimit : ℤ
  defaultUserId : String

/-- What the services around the chat answer in one turn. `decode` makes a text of code units. -/
structure TurnServices where
  getInstructions : String → Except Thrown (Option String)
  search : String → String → ℤ → Option String → Except Thrown (Option (List (Option (Option String))))
  routeAndProcess : List UInt8 → String → Option String → Except Thrown (List (Option String))
  retrieve : String → Option String → RagRetrievalResult
  decode : JavaText → String
  presignAll : List SourceRef → Except Thrown (List SourceFile)

section Controller

variable (cfg : ChatConfig) (request : PromptRequest)

def PromptRequest.userId : String :=
  match request.userIdHeader with
  | none => cfg.defaultUserId
  | some header => if isBlank header then cfg.defaultUserId else header

def visionUnsupported : ApiError :=
  ⟨415, "vision_unsupported", some ("Selected provider/model does not support image input. " ++
    "Use a vision-capable model (e.g. claude-sonnet-4-6, gpt-4o, gemini-2.5-pro).")⟩

def unknownCompactionProvider (compactionProvider : String) : ApiError :=
  ⟨400, "unknown_compaction_provider", some ("compactionProvider '" ++ compactionProvider ++
    "' is not configured. Known providers: " ++ formatKeys cfg.agent.cfg.ai.providers)⟩

/-- The answer of the controller to a request that it does not pass on. Globs that do not compile are thrown. -/
def rejection : Except Thrown (Option ApiError) := do
  let supported ←
    if request.image.any fun image => !image.isEmpty then
      match cfg.vision.supportsImages request.provider request.model with
      | none => .error ⟨.illegalArgument, none⟩
      | some supported => .ok supported
    else .ok true
  if !supported then return some visionUnsupported
  match request.compactionProvider with
  | none => return none
  | some compactionProvider =>
    if !isBlank compactionProvider && (cfg.agent.cfg.ai.providers.lookup compactionProvider).isNone then
      return some (unknownCompactionProvider cfg compactionProvider)
    else return none

end Controller

/-! ### The assembly of the messages -/

structure BuiltUserMessage where
  text : String
  sources : List SourceRef
  ragRetrievalRan : Bool

section Assembly

variable (cfg : ChatConfig) (services : TurnServices)

/-- `DocumentIngestionService.processDocument` -/
def processDocument (file : Option MultipartFile) : Except Thrown String :=
  match file with
  | none => .ok ""
  | some file =>
    if file.isEmpty then .ok ""
    else
      let filename := file.originalFilename.getD "document"
      if !file.readable then .error ⟨.ingestion, some ("Failed to read file bytes: " ++ filename)⟩
      else
        (services.routeAndProcess file.bytes filename file.contentType).map fun documents =>
          "\n\n<document_context>\n" ++ documents.foldl (fun a b => a ++ "\n" ++ formatNullable b) "" ++
            "\n</document_context>\n"

/-- Only an `Exception` is caught. -/
def fetchSemanticMemory (userId userPrompt : String) (embeddingProvider : Option String) :
    Except Thrown (Option (List (Option (Option String)))) :=
  match services.search userId userPrompt cfg.searchLimit embeddingProvider with
  | .ok items => .ok items
  | .error e => if e.kind = .error then .error e else .ok (some [])

def buildSemanticMemoryBlock (items : Option (List (Option (Option String)))) : String :=
  let lines := (items.getD []).filterMap fun item =>
    item.join.bind fun text => if isBlank text then none else some ("- " ++ text)
  if lines.isEmpty then "" else "User memory (may be relevant):\n" ++ "\n".intercalate lines

def buildSystemMessages (userId userPrompt : String) (embeddingProvider : Option String) :
    Except Thrown AssembledSystemMessages := do
  let instructions ← services.getInstructions userId
  let semanticMemory ← fetchSemanticMemory cfg services userId userPrompt embeddingProvider
  let semanticMemoryBlock := buildSemanticMemoryBlock semanticMemory
  let dynamic := "User Instructions:\n" ++ instructions.getD ""
  return ⟨cfg.baseSystemPrompt,
    if isBlank semanticMemoryBlock then dynamic else dynamic ++ "\n\n" ++ semanticMemoryBlock⟩

def buildUserMessage (originalPrompt : String) (document : Option MultipartFile) (embeddingProvider : Option String) :
    Except Thrown BuiltUserMessage := do
  let processed ← processDocument services document
  let userPrompt := originalPrompt ++ processed
  let retrieval := services.retrieve userPrompt embeddingProvider
  let text := if JavaText.isBlank retrieval.context then userPrompt
    else userPrompt ++ "\n\n" ++ services.decode retrieval.context
  return ⟨text, retrieval.sources, retrieval.retrievalRan⟩

def Thrown.ofValidation : ValidationError → Thrown
  | .illegalArgument message => ⟨.illegalArgument, some message⟩
  | .incompatibleEmbedding message => ⟨.incompatibleEmbedding, some message⟩

/-- `prompt` up to the history. -/
def assemble (request : PromptRequest) : Except Thrown (AssembledSystemMessages × BuiltUserMessage) := do
  let embeddingProvider := activeEmbeddingProvider cfg.agent.cfg request.provider request.embeddingProvider
  (validate cfg.agent.cfg request.provider embeddingProvider).mapError Thrown.ofValidation
  let systemMessages ← buildSystemMessages cfg services (request.userId cfg) request.prompt embeddingProvider
  let userMessage ← buildUserMessage services request.prompt request.document embeddingProvider
  return (systemMessages, userMessage)

end Assembly

/-! ### The memory as the service uses it -/

/-- The chat memory of one conversation. -/
structure MemoryOps (M : Type) where
  get : M → M × Except ServiceException (List Message)
  add : M → List Message → M
  compact : M → Transcriber → Option String → Option CompactionOverride → M
  expire : M → M

/-- `ChatHistoryService` loads the last hundred messages. -/
def worldOps (d : Deployment) (userId : String) : MemoryOps World where
  get w := Memory.get d w userId 100
  add w messages := addMessages d w userId messages
  compact w llm primaryProvider override := (maybeCompact d llm.summariser w userId primaryProvider override).1
  expire w := w.setRedis (chatKey userId) []

def conversationOps (d : Deployment) : MemoryOps Conversation where
  get c := c.get d 100
  add c messages := c.add d messages
  compact c llm primaryProvider override := c.compact d llm primaryProvider override
  expire c := c.expire

/-! ### The turns of a user -/

/-- A turn that waits for the model. -/
structure InFlight where
  request : PromptRequest
  services : TurnServices
  userMessage : BuiltUserMessage
  question : Question

/-- A dispatched compaction. -/
structure Compaction where
  primaryProvider : Option String
  override : CompactionOverride

structure ServedResponse where
  response : AiResponse
  sources : Option (List SourceFile)

/-- How a turn has ended: refused by the controller, before the model was asked, or after. -/
inductive Outcome where
  | rejected (answer : ApiError)
  | failed (e : Thrown)
  | asked (question : Question) (executed : Executed) (served : Except Thrown ServedResponse)

/-- The turns of a user by number, the compactions likewise, and the outcomes in the order of time. -/
structure Session where
  turns : List (Option InFlight)
  compactions : List (Option Compaction)
  outcomes : List Outcome

def Session.empty : Session := ⟨[], [], []⟩

/-- What can happen next: a request arrives, the model answers a turn, a dispatched compaction runs, or the key of a
user expires. -/
inductive Event where
  | prompt (request : PromptRequest) (services : TurnServices)
  | answer (userId : String) (i : ℕ) (llm : ℕ → ModelCall → Except Thrown (Option ChatResponse))
  | compact (userId : String) (i : ℕ) (llm : Transcriber)
  | expire (userId : String)

def Event.userId (cfg : ChatConfig) : Event → String
  | .prompt request _ => request.userId cfg
  | .answer userId _ _ => userId
  | .compact userId _ _ => userId
  | .expire userId => userId

section Turns

variable (cfg : ChatConfig) {M : Type} (ops : MemoryOps M)

/-- What the service throws when the history cannot be loaded. -/
def historyFailure : Thrown := ⟨.otherRuntime, some "Failed to retrieve chat memory"⟩

/-- A request up to the question for the model. -/
def beginTurn (m : M) (session : Session) (request : PromptRequest) (services : TurnServices) : M × Session :=
  match rejection cfg request with
  | .error e => (m, { session with outcomes := session.outcomes ++ [.failed e] })
  | .ok (some answer) => (m, { session with outcomes := session.outcomes ++ [.rejected answer] })
  | .ok none =>
    match assemble cfg services request with
    | .error e => (m, { session with outcomes := session.outcomes ++ [.failed e] })
    | .ok (systemMessages, userMessage) =>
      let loaded := ops.get m
      match loaded.2 with
      | .error _ => (loaded.1, { session with outcomes := session.outcomes ++ [.failed historyFailure] })
      | .ok history =>
        let question : Question := {
          userId := request.userId cfg
          systemMessages := systemMessages
          userText := userMessage.text
          history := history
          image := request.image
          provider := request.provider
          model := request.model }
        (loaded.1, { session with turns := session.turns ++ [some ⟨request, services, userMessage, question⟩] })

/-- `[userMsg, assistantMsg]` of `saveHistory`. -/
def exchange (question : Question) (response : AiResponse) : List Message :=
  [⟨.user, question.userText⟩, ⟨.assistant, response.content⟩]

/-- The response with the sources, if they are asked for. -/
def serve (turn : InFlight) (response : AiResponse) : Except Thrown ServedResponse :=
  if turn.request.attachSources.getD false then
    if turn.userMessage.ragRetrievalRan then
      (turn.services.presignAll turn.userMessage.sources).map fun files => ⟨response, some files⟩
    else .ok ⟨response, some []⟩
  else .ok ⟨response, none⟩

/-- The rest of a turn, from the model on. -/
def endTurn (m : M) (session : Session) (i : ℕ) (turn : InFlight)
    (llm : ℕ → ModelCall → Except Thrown (Option ChatResponse)) : M × Session :=
  let executed := execute cfg.agent turn.question llm
  let turns := session.turns.set i none
  match executed.result with
  | .error e => (m, { session with
      turns := turns, outcomes := session.outcomes ++ [.asked turn.question executed (.error e)] })
  | .ok response =>
    let compaction : Compaction := {
      primaryProvider := some (resolvedPrimaryProvider cfg.agent.cfg turn.request.provider)
      override := ⟨turn.request.compactionProvider, turn.request.compactionModel⟩ }
    (ops.add m (exchange turn.question response), {
      turns := turns
      compactions := session.compactions ++ [some compaction]
      outcomes := session.outcomes ++ [.asked turn.question executed (serve turn response)] })

/-- One event of a user; an event of a turn or a compaction that is not there does nothing. -/
def sessionStep (state : M × Session) : Event → M × Session
  | .prompt request services => beginTurn cfg ops state.1 state.2 request services
  | .answer _ i llm =>
    match state.2.turns[i]?.join with
    | none => state
    | some turn => endTurn cfg ops state.1 state.2 i turn llm
  | .compact _ i llm =>
    match state.2.compactions[i]?.join with
    | none => state
    | some compaction =>
      (ops.compact state.1 llm compaction.primaryProvider (some compaction.override),
        { state.2 with compactions := state.2.compactions.set i none })
  | .expire _ => (ops.expire state.1, state.2)

end Turns

/-- The two backends, and the turns of each user. -/
structure ChatState where
  world : World
  sessions : String → Session

def ChatState.empty : ChatState := ⟨World.empty, fun _ => .empty⟩

def ChatState.next (cfg : ChatConfig) (s : ChatState) (event : Event) : ChatState :=
  let userId := event.userId cfg
  let state := sessionStep cfg (worldOps cfg.deployment userId) (s.world, s.sessions userId) event
  ⟨state.1, Function.update s.sessions userId state.2⟩

/-- The answer over HTTP: the response, or an error. -/
def Outcome.answer : Outcome → Except ApiError ServedResponse
  | .rejected answer => .error answer
  | .failed e => .error (handleException e)
  | .asked _ _ served => served.mapError handleException

/-- What a turn has stored. -/
def Outcome.stored : Outcome → List Message
  | .asked question executed _ => (executed.result.toOption.map (exchange question)).getD []
  | .rejected _ => []
  | .failed _ => []

end AscendAI.Chat
