import Gasoline.FramingGrammar
import Gasoline.FramingThrows
import Gasoline.FramingAccounts
import Gasoline.TrustAttempts
import Gasoline.IdentityProcesses
import Gasoline.TrafficRuns
import Gasoline.Encounter
import Gasoline.Arbitration
import Gasoline.NoisePhases
import Gasoline.Delivery
import Gasoline.DiscoveryRuns
import Gasoline.AddressRanges
import Gasoline.Greeting
import Gasoline.HttpRequest
import Gasoline.NoiseBuffers
import Gasoline.PacketBuffer
import Gasoline.TrustReadBack
import Gasoline.TrustLifetime
import Gasoline.RevocationProgress
import Gasoline.ApiTexts
import Gasoline.Locks
