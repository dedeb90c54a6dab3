import SwarmManager.Http.PeerEndpoint
import SwarmManager.Main
import SwarmManager.Proofs.Services
import SwarmManager.Proofs.Exchange
import SwarmManager.Proofs.Steps
import SwarmManager.Proofs.Integrity
import SwarmManager.Proofs.History
import SwarmManager.Proofs.TaskSets
import SwarmManager.Proofs.OneHop
import SwarmManager.Proofs.Lifecycle
import SwarmManager.Proofs.Failure
import SwarmManager.Proofs.Responses
import SwarmManager.Proofs.Delivery
import SwarmManager.Proofs.Agreement
import SwarmManager.Proofs.Replication
import SwarmManager.Proofs.Membership
import SwarmManager.Proofs.Registry
import SwarmManager.Proofs.Designation
import SwarmManager.Proofs.RegistrySteps
import SwarmManager.Proofs.Uniqueness
import SwarmManager.Proofs.Isolation
import SwarmManager.Proofs.Names
import SwarmManager.Proofs.Notifications
import SwarmManager.Proofs.Turns
import SwarmManager.Proofs.Refusals
import SwarmManager.Proofs.Listeners
import SwarmManager.Proofs.SwarmLife
import SwarmManager.Proofs.Separation
import SwarmManager.Proofs.ServicePaths
import SwarmManager.Proofs.Documents
import SwarmManager.Proofs.Timestamps
import SwarmManager.Proofs.Codecs
import SwarmManager.Proofs.WireFormat
import SwarmManager.Proofs.Arrivals
import SwarmManager.Proofs.Selection
import SwarmManager.Proofs.Cancelling
import SwarmManager.Proofs.Repair
import SwarmManager.Proofs.Ports
import SwarmManager.Proofs.Addresses
import SwarmManager.Proofs.Posting
