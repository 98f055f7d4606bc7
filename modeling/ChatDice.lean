import ChatDice.Main
import ChatDice.Chat.Conversation
import ChatDice.Random.Script
import ChatDice.Proofs.Notation.Bytes
import ChatDice.Proofs.Notation.Characters
import ChatDice.Proofs.Notation.Language
import ChatDice.Proofs.Notation.Leftmost
import ChatDice.Proofs.Notation.RoundTrip
import ChatDice.Proofs.Notation.Report
import ChatDice.Proofs.Notation.Lossless
import ChatDice.Proofs.Notation.Surrounded
import ChatDice.Proofs.Notation.Separators
import ChatDice.Proofs.Notation.Canonical
import ChatDice.Proofs.Random.Face
import ChatDice.Proofs.Roll.Outcome
import ChatDice.Proofs.Roll.Range
import ChatDice.Proofs.Roll.Request
import ChatDice.Proofs.Roll.Agreement
import ChatDice.Proofs.Roll.Verdict
import ChatDice.Proofs.Roll.Fallback
import ChatDice.Proofs.Roll.Order
import ChatDice.Proofs.Roll.Fairness
import ChatDice.Proofs.Chat.Action
import ChatDice.Proofs.Chat.Decision
import ChatDice.Proofs.Chat.Dispatch
import ChatDice.Proofs.Chat.Feed
import ChatDice.Proofs.Chat.Replies
import ChatDice.Proofs.Chat.Silence
import ChatDice.Proofs.Chat.Repetition
import ChatDice.Proofs.Chat.Safety
import ChatDice.Proofs.Roll.Independence
import ChatDice.Proofs.Roll.Attained
import ChatDice.Proofs.Roll.Ends
import ChatDice.Proofs.Roll.Consumption
import ChatDice.Proofs.Chat.CommandLine
import ChatDice.Proofs.Chat.Streaming
import ChatDice.Proofs.Chat.Targets
import ChatDice.Proofs.Chat.Blanks
import ChatDice.Proofs.Config.Dict
import ChatDice.Proofs.Config.Merge
import ChatDice.Proofs.Config.Reading
import ChatDice.Proofs.Config.Moments
import ChatDice.Proofs.Config.Checked
import ChatDice.Proofs.Config.Precedence
import ChatDice.Proofs.Config.VariableOrder
