import CoopShooter.Client.LobbyClient
import CoopShooter.Client.Session
import CoopShooter.Main
import CoopShooter.Server.Conversation
import CoopShooter.Wire.Stream
import CoopShooter.Proofs.Client.Asking
import CoopShooter.Proofs.Client.Calls
import CoopShooter.Proofs.Client.Closing
import CoopShooter.Proofs.Client.Errand
import CoopShooter.Proofs.Client.Joining
import CoopShooter.Proofs.Client.Ledger
import CoopShooter.Proofs.Client.Losses
import CoopShooter.Proofs.Client.Malformed
import CoopShooter.Proofs.Client.Matching
import CoopShooter.Proofs.Client.Presses
import CoopShooter.Proofs.Net.Ring
import CoopShooter.Proofs.Play.AnyOrder
import CoopShooter.Proofs.Play.Freshness
import CoopShooter.Proofs.Play.Lattice
import CoopShooter.Proofs.Play.Lives
import CoopShooter.Proofs.Play.Mirror
import CoopShooter.Proofs.Play.News
import CoopShooter.Proofs.Play.Prediction
import CoopShooter.Proofs.Play.Repeats
import CoopShooter.Proofs.Registry.Consistent
import CoopShooter.Proofs.Registry.Housed
import CoopShooter.Proofs.Registry.Isolation
import CoopShooter.Proofs.Registry.Partings
import CoopShooter.Proofs.Registry.Pressure
import CoopShooter.Proofs.Registry.Refusals
import CoopShooter.Proofs.Registry.Rosters
import CoopShooter.Proofs.Registry.Sender
import CoopShooter.Proofs.Room.Births
import CoopShooter.Proofs.Room.Collisions
import CoopShooter.Proofs.Room.Inputs
import CoopShooter.Proofs.Room.Matching
import CoopShooter.Proofs.Room.Succession
import CoopShooter.Proofs.Server.Agreement
import CoopShooter.Proofs.Server.Departures
import CoopShooter.Proofs.Server.Grammar
import CoopShooter.Proofs.Server.Logins
import CoopShooter.Proofs.Server.Names
import CoopShooter.Proofs.Server.Outsiders
import CoopShooter.Proofs.Server.Relay
import CoopShooter.Proofs.Server.Talk
import CoopShooter.Proofs.Server.Waiting
import CoopShooter.Proofs.Text.Cut
import CoopShooter.Proofs.Wire.Stream
