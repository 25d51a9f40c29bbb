import SipWitch.Registration
import SipWitch.Nonce
import SipWitch.Rejection
import SipWitch.Digest
import SipWitch.Gate
import SipWitch.Fanout
import SipWitch.Delivery
import SipWitch.History
import SipWitch.Outbox
import SipWitch.Presence
import SipWitch.Status
import SipWitch.Answers
import SipWitch.Profile
import SipWitch.Integrity
import SipWitch.Suspension
import SipWitch.Revocation
import SipWitch.Roster
import SipWitch.Partial
import SipWitch.Groups
import SipWitch.Membership
import SipWitch.Addressee
import SipWitch.Initialization
import SipWitch.Document
import SipWitch.Service
import SipWitch.Removal
import SipWitch.Convergence
import SipWitch.Recency
import SipWitch.MessageModel
import SipWitch.Mirror
import SipWitch.Topics
import SipWitch.Devices
import SipWitch.Login
import SipWitch.Phonebook
import SipWitch.References
import SipWitch.Sequence
import SipWitch.Parse
import SipWitch.Lifetime
import SipWitch.Creation
import SipWitch.Search
import SipWitch.Unread
import SipWitch.Listing
import SipWitch.Authority
import SipWitch.Escape
import SipWitch.Padding
import SipWitch.Blocks
import SipWitch.Encryption
import SipWitch.Uri
import SipWitch.Threads
import SipWitch.Control
import SipWitch.Bounds
import SipWitch.Synchronization
import SipWitch.Mealy
import SipWitch.ListenerThread
import SipWitch.Lifecycle
import SipWitch.Ensures
import SipWitch.Connection
import SipWitch.Markup
import SipWitch.Composer
import SipWitch.Retention
import SipWitch.Recovery
import SipWitch.AuthConnection
import SipWitch.Mailbox
