import Holdem.Lib.Clockwise
import Holdem.Lib.Combinations
import Holdem.Lib.Dict
import Holdem.Lib.Runs
import Holdem.Lib.Regex
import Holdem.Lib.Text
import Holdem.Lib.Numeral
import Holdem.Lib.Json
import Holdem.Lib.JsonText
import Holdem.Lib.Weighted
import Holdem.Lib.Loops
import Holdem.Lib.Grouping
import Holdem.Cards
import Holdem.Evaluator
import Holdem.Player
import Holdem.History
import Holdem.Game
import Holdem.Betting
import Holdem.Phases
import Holdem.Showdown
import Holdem.View
import Holdem.Driver
import Holdem.BettingFacts
import Holdem.PhaseFacts
import Holdem.HandStart
import Holdem.Payout
import Holdem.PotLayers
import Holdem.ShowdownFacts
import Holdem.ChipConservation
import Holdem.DriverFacts
import Holdem.Legality
import Holdem.BetLevel
import Holdem.RoundFacts
import Holdem.RoundEnd
import Holdem.NobodySkipped
import Holdem.PotPaid
import Holdem.Interleaving
import Holdem.CardFlow
import Holdem.BoardPhases
import Holdem.EvenBets
import Holdem.Recording
import Holdem.ActionRows
import Holdem.HandLedger
import Holdem.SettledHands
import Holdem.Renaming
import Holdem.HistoryWrites
import Holdem.FletLoop
import Holdem.LogGameState
import Holdem.LogParser
import Holdem.LogActions
import Holdem.LogPrompts
import Holdem.LogTail
import Holdem.Masking
import Holdem.Privacy
import Holdem.StandardPoker
import Holdem.HandClass
import Holdem.HandOrder
import Holdem.SidePots
import Holdem.HandLaws
import Holdem.FairSplit
import Holdem.UncalledBets
import Holdem.StaleFlag
import Holdem.LatestAction
import Holdem.StatusLaws
import Holdem.AgentAnswer
import Holdem.AnswerTotal
import Holdem.AnswerRoundTrip
import Holdem.StateMessage
import Holdem.ApiPlayer
import Holdem.AgentProtocol
import Holdem.ButtonMoves
import Holdem.TableTotal
import Holdem.LostChips
import Holdem.HistoryRange
import Holdem.RandomPlayer
import Holdem.CpuGame
import Holdem.CpuBudget
import Holdem.HistoryQueries
import Holdem.HistoryReports
import Holdem.Elimination
import Holdem.AgentOnly
import Holdem.AgentTally
import Holdem.AgentStatistics
import Holdem.ActionItems
import Holdem.ActionTimeline
import Holdem.Spectator
import Holdem.AgentSetup
import Holdem.TurnOrder
import Holdem.BigBlindOption
import Holdem.Team1Evaluator
import Holdem.Team1Hands
import Holdem.Team1Agreement
import Holdem.Team1Parsing
import Holdem.Team1Scores
