import AgentFleet.Main
import AgentFleet.Json.Shown
import AgentFleet.Proofs.Outcome
import AgentFleet.Proofs.Replacement
import AgentFleet.Proofs.RosterCalls
import AgentFleet.Proofs.RosterHistory
import AgentFleet.Proofs.Atomicity
import AgentFleet.Proofs.AgentsFile
import AgentFleet.Proofs.SavedFile
import AgentFleet.Proofs.CloudCalls
import AgentFleet.Proofs.Polling
import AgentFleet.Proofs.Growing
import AgentFleet.Proofs.Reaching
import AgentFleet.Proofs.Restart
import AgentFleet.Proofs.Sparing
import AgentFleet.Proofs.Contacting
import AgentFleet.Proofs.Pooling
import AgentFleet.Proofs.Sequence
import AgentFleet.Proofs.Misusing
import AgentFleet.Proofs.Resolving
import AgentFleet.Proofs.OneWorker
import AgentFleet.Proofs.Agreement
import AgentFleet.Proofs.Failing
import AgentFleet.Proofs.Passing
import AgentFleet.Proofs.Reporting
import AgentFleet.Proofs.Managing
import AgentFleet.Proofs.Reading
import AgentFleet.Proofs.Connecting
import AgentFleet.Proofs.Escaping
import AgentFleet.Proofs.Blaming
import AgentFleet.Proofs.Arguments
import AgentFleet.Proofs.ReadingBack
import AgentFleet.Proofs.SoundReading
import AgentFleet.Proofs.Encoding
import AgentFleet.Proofs.Appending
import AgentFleet.Proofs.Provisioning
import AgentFleet.Proofs.Lasting
import AgentFleet.Proofs.Showing
import AgentFleet.Proofs.Closing
import AgentFleet.Proofs.Untouched
import AgentFleet.Proofs.Rounds
import AgentFleet.Proofs.Binding
import AgentFleet.Proofs.Paging
import AgentFleet.Proofs.AgentLines
import AgentFleet.Proofs.Refusals
import AgentFleet.Proofs.SettingLines
import AgentFleet.Proofs.LineEnds
import AgentFleet.Proofs.Taking
import AgentFleet.Proofs.Checking
import AgentFleet.Proofs.CommandLines
import AgentFleet.Proofs.Scanning
import AgentFleet.Proofs.Accepting
