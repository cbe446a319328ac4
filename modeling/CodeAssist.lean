import CodeAssist.Main
import CodeAssist.Provider.Scripted
import CodeAssist.Service.Routes
import CodeAssist.Session.Concurrent
import CodeAssist.TestBed.Machine
import CodeAssist.Proofs.Prompt.Cutting
import CodeAssist.Proofs.Session.Interleaving
import CodeAssist.Proofs.Session.Building
import CodeAssist.Proofs.Store.Logs
import CodeAssist.Proofs.Store.Reopening
import CodeAssist.Proofs.Session.Repeats
import CodeAssist.Proofs.Session.PromptSettings
import CodeAssist.Proofs.Reply.FileNames
import CodeAssist.Proofs.Facts.Placing
import CodeAssist.Proofs.Memory.Search
import CodeAssist.Proofs.Offline.Again
import CodeAssist.Proofs.Remote.Completions
import CodeAssist.Proofs.Reply.Fences
import CodeAssist.Proofs.Reply.Refactoring
import CodeAssist.Proofs.Prompt.Window
import CodeAssist.Proofs.Gate.History
import CodeAssist.Proofs.RoundTrip
import CodeAssist.Proofs.Store.OpenFile
import CodeAssist.Proofs.Command.Sources
import CodeAssist.Proofs.Offline.Completion
import CodeAssist.Proofs.Offline.Semicolon
import CodeAssist.Proofs.Toolchain.Captured
