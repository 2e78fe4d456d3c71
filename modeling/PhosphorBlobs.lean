import PhosphorBlobs.Lib.Machine
import PhosphorBlobs.Lib.Bytes
import PhosphorBlobs.Lib.Rotation
import PhosphorBlobs.Lib.Firsts
import PhosphorBlobs.Lib.Trace
import PhosphorBlobs.Lib.Object
import PhosphorBlobs.Lib.Overlay
import PhosphorBlobs.Manager
import PhosphorBlobs.Manager.Outcomes
import PhosphorBlobs.Manager.Opening
import PhosphorBlobs.Manager.Tables
import PhosphorBlobs.Manager.Acts
import PhosphorBlobs.Manager.Ledger
import PhosphorBlobs.Manager.Contract
import PhosphorBlobs.Manager.Trace
import PhosphorBlobs.Manager.Expiry
import PhosphorBlobs.Manager.Isolation
import PhosphorBlobs.Manager.Lifetime
import PhosphorBlobs.Manager.Allocation
import PhosphorBlobs.Manager.Reclaiming
import PhosphorBlobs.Manager.Residue
import PhosphorBlobs.Manager.Plain
import PhosphorBlobs.Ipmi
import PhosphorBlobs.Process
import PhosphorBlobs.Utils
import PhosphorBlobs.Wire.Protocol
import PhosphorBlobs.Wire.Commands
import PhosphorBlobs.Wire.Dispatch
import PhosphorBlobs.Wire.Requests
import PhosphorBlobs.Wire.Bounds
import PhosphorBlobs.Wire.Replies
import PhosphorBlobs.Wire.Stats
import PhosphorBlobs.Wire.Client
import PhosphorBlobs.Service.Errors
import PhosphorBlobs.Service.Enumeration
import PhosphorBlobs.Service.Identifiers
import PhosphorBlobs.Service.Loading
import PhosphorBlobs.Main
import PhosphorBlobs.Service.Daemon
import PhosphorBlobs.Service.HostView
import PhosphorBlobs.Service.Hosts
import PhosphorBlobs.Service.Remote
import PhosphorBlobs.Example
import PhosphorBlobs.Example.Methods
import PhosphorBlobs.Example.Sessions
import PhosphorBlobs.Example.Staging
import PhosphorBlobs.Example.Transfer
import PhosphorBlobs.Example.Delivery
import PhosphorBlobs.Example.Sharing
