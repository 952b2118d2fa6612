import Interaction.Log.Reading
import Interaction.Main
import Interaction.Proofs.Attending
import Interaction.Proofs.Confluence
import Interaction.Proofs.CallOrder
import Interaction.Proofs.Conversing
import Interaction.Proofs.Delivering
import Interaction.Proofs.Draining
import Interaction.Proofs.Enrolling
import Interaction.Proofs.Fetching
import Interaction.Proofs.Following
import Interaction.Proofs.History
import Interaction.Proofs.Loading
import Interaction.Proofs.Logging
import Interaction.Proofs.Layering
import Interaction.Proofs.Merging
import Interaction.Proofs.Navigating
import Interaction.Proofs.CheckFaults
import Interaction.Proofs.ModelFiles
import Interaction.Proofs.Recognizing
import Interaction.Proofs.Reporting
import Interaction.Proofs.MachineFaults
import Interaction.Proofs.Switching
import Interaction.Proofs.Paging
import Interaction.Proofs.Transcribing
