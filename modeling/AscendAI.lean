import AscendAI.Lib.Runs
import AscendAI.Lib.ListWindow
import AscendAI.Lib.RedisList
import AscendAI.Lib.RowOrder
import AscendAI.Lib.ProcessPool
import AscendAI.Lib.JavaString
import AscendAI.Lib.PythonString
import AscendAI.Memory.Message
import AscendAI.Memory.ChatHistory
import AscendAI.Memory.RecentWindow
import AscendAI.Memory.CompactionEffect
import AscendAI.Memory.CompactionRuns
import AscendAI.Memory.ChatSystem
import AscendAI.Memory.CacheCoherence
import AscendAI.Memory.MessageTags
import AscendAI.Memory.CompactionRaces
import AscendAI.SemanticMemory.MemoryStore
import AscendAI.SemanticMemory.MemoryService
import AscendAI.SemanticMemory.SemanticMemoryClient
import AscendAI.SemanticMemory.UserIsolation
import AscendAI.User.UserInstructionService
import AscendAI.User.InstructionCache
import AscendAI.Lib.JsonTree
import AscendAI.Ocr.PaddleOcrService
import AscendAI.Ocr.PaddleOcrClient
import AscendAI.Ingestion.IngestionSecurity
import AscendAI.Ingestion.Upload
import AscendAI.Provider.DefaultProvider
import AscendAI.Ingestion.IngestionService
import AscendAI.Ingestion.ManualIngestion
import AscendAI.Ingestion.IngestionLedger
import AscendAI.Ingestion.IngestionConvergence
import AscendAI.WebSearch.WebReader
import AscendAI.WebSearch.ReaderLadder
import AscendAI.Lib.FairRuns
import AscendAI.AudioScribe.ProgressStream
import AscendAI.AudioScribe.StreamEnd
import AscendAI.Lib.StableSort
import AscendAI.AudioScribe.ConversationMerger
import AscendAI.AudioScribe.MergedConversation
import AscendAI.AudioScribe.DownloadFileManager
import AscendAI.AudioScribe.FileConsistency
import AscendAI.AudioScribe.ServedTranscripts
import AscendAI.AudioScribe.DownloadService
import AscendAI.AudioScribe.ContactedHosts
import AscendAI.Lib.IpAddress
import AscendAI.Lib.PythonUrl
import AscendAI.Lib.HttpNetwork
import AscendAI.WebSearch.CookieManager
import AscendAI.WebSearch.CookieIsolation
import AscendAI.WebSearch.UrlValidator
import AscendAI.WebSearch.FetchedUrls
import AscendAI.Lib.OrderedDict
import AscendAI.Ocr.EngineCache
import AscendAI.SemanticMemory.ClientInstances
import AscendAI.Lib.JavaText
import AscendAI.Lib.JsonText
import AscendAI.SemanticMemory.FactExtraction
import AscendAI.Lib.PosixPath
import AscendAI.Lib.XmlTree
import AscendAI.AudioScribe.AudacityParser
import AscendAI.AudioScribe.TrackTimeline
import AscendAI.AudioScribe.ClipContents
import AscendAI.AudioScribe.ProjectTracks
import AscendAI.Lib.FileSystem
import AscendAI.AudioScribe.ZipExtraction
import AscendAI.AudioScribe.ArchiveContents
import AscendAI.Lib.ConcatScript
import AscendAI.AudioScribe.ConcatList
import AscendAI.Lib.Failure
import AscendAI.Memory.CompactionFailures
import AscendAI.Memory.FailedAdd
import AscendAI.Memory.ConversationFrame
import AscendAI.Memory.ReadRows
import AscendAI.Memory.ClearedMemory
import AscendAI.Provider.ResolvedProviders
import AscendAI.Lib.JavaRegex
import AscendAI.Provider.VisionGlobs
import AscendAI.Ingestion.SanitizedNames
import AscendAI.Ingestion.UploadedFiles
import AscendAI.User.ReadYourWrites
import AscendAI.Lib.FirstOccurrences
import AscendAI.Lib.TextBudget
import AscendAI.Rag.RagRetrievalService
import AscendAI.Rag.GroundingSources
import AscendAI.Lib.ActionLog
import AscendAI.Ingestion.ConcurrentIngestion
import AscendAI.Ingestion.ClaimedObjects
import AscendAI.Lib.Reader
import AscendAI.SemanticMemory.SearchDecoding
import AscendAI.Lib.Scoped
import AscendAI.AudioScribe.TempFiles
import AscendAI.Lib.LastWrite
import AscendAI.WebSearch.SessionFreshness
import AscendAI.Lib.BracketReading
import AscendAI.SemanticMemory.LastArray
import AscendAI.Lib.RecentlyUsed
import AscendAI.Ocr.RecentEngines
import AscendAI.WebSearch.NoVncOffer
import AscendAI.Lib.Binary64
import AscendAI.Lib.PaddedNumber
import AscendAI.AudioScribe.ChunkedTranscription
import AscendAI.AudioScribe.ChunkLength
import AscendAI.AudioScribe.TimeOrder
import AscendAI.AudioScribe.TimedTranscripts
import AscendAI.Lib.ForkJoin
import AscendAI.Rag.PresignedSources
import AscendAI.Lib.OwnedLock
import AscendAI.WebSearch.BrowserPool
import AscendAI.WebSearch.LiveDrivers
import AscendAI.Lib.LinkedFiles
import AscendAI.Ocr.McpFetch
import AscendAI.Ocr.ConfinedFetch
import AscendAI.Lib.HtmlTree
import AscendAI.Lib.UrlJoin
import AscendAI.WebSearch.LinkAnnotator
import AscendAI.WebSearch.MarkedLinks
import AscendAI.Lib.KeyedRuns
import AscendAI.Memory.Conversations
import AscendAI.Chat.ChatExecutor
import AscendAI.Chat.AscendChatService
import AscendAI.Chat.ChatSessions
import AscendAI.Lib.WorkerPool
import AscendAI.Ingestion.DocumentRouter
import AscendAI.SemanticMemory.McpServer
import AscendAI.SemanticMemory.SemanticMemoryExtractor
import AscendAI.Lib.LoadingCache
import AscendAI.Weather.InputValidator
import AscendAI.Weather.OpenMeteoClient
import AscendAI.Weather.WeatherToolService
import AscendAI.Weather.ServedWeather
import AscendAI.WebSearch.SessionSources
import AscendAI.WebSearch.ChallengeDetector
import AscendAI.WebSearch.ReadStrategies
import AscendAI.WebSearch.ReadService
import AscendAI.WebSearch.ServedReads
import AscendAI.WebSearch.ReadAnswers
import AscendAI.WebSearch.SentSessions
import AscendAI.Lib.JsonGrammar
import AscendAI.Lib.JsonDumps
import AscendAI.Lib.EventStream
import AscendAI.Lib.PrivateFiles
import AscendAI.Ocr.OcrRequests
import AscendAI.Ocr.OcrAnswers
import AscendAI.AudioScribe.StreamWire
import AscendAI.WebSearch.CookiePayloads
