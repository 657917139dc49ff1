import FleetGateway.Core.Arguments
import FleetGateway.Core.Numbers
import FleetGateway.Storage.Crash
import FleetGateway.Storage.Retention
import FleetGateway.Storage.Checksum
import FleetGateway.Storage.Creation
import FleetGateway.Storage.FailStop
import FleetGateway.Storage.Exactness
import FleetGateway.Storage.Refusal
import FleetGateway.Storage.Kills
import FleetGateway.Storage.Pread
import FleetGateway.Http.Framing
import FleetGateway.Http.Reception
import FleetGateway.Network.Reading
import FleetGateway.Network.Shutdown
import FleetGateway.Network.Staleness
import FleetGateway.Network.Conservation
import FleetGateway.Network.Listing
import FleetGateway.Network.Stream
import FleetGateway.Network.ThreadPool
import FleetGateway.Network.Joining
import FleetGateway.Network.Draining
import FleetGateway.Security.Limiter
import FleetGateway.Security.Admission
import FleetGateway.Gateway.Limiting
import FleetGateway.Gateway.Exchange
import FleetGateway.Gateway.Restart
