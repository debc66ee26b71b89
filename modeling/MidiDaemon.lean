import MidiDaemon.Library.Entries
import MidiDaemon.Library.Machine
import MidiDaemon.Library.Interference
import MidiDaemon.Library.Ledger
import MidiDaemon.Library.Blocks
import MidiDaemon.Library.Framing
import MidiDaemon.Library.Memory
import MidiDaemon.Library.Ownership
import MidiDaemon.Library.Scanf
import MidiDaemon.Library.Heap
import MidiDaemon.Library.BoundedSet
import MidiDaemon.Library.Simulation
import MidiDaemon.Library.Channels
import MidiDaemon.Library.Cursor
import MidiDaemon.Library.Getopt
import MidiDaemon.Strings
import MidiDaemon.NoteEvent
import MidiDaemon.Reassembly
import MidiDaemon.ReassemblyInvariant
import MidiDaemon.BluetoothDecoding
import MidiDaemon.NoteDecoding
import MidiDaemon.SharedScratch
import MidiDaemon.SlotTable
import MidiDaemon.SlotRefinement
import MidiDaemon.SlotScans
import MidiDaemon.BluetoothAddress
import MidiDaemon.BluetoothServer
import MidiDaemon.SlotRegistration
import MidiDaemon.SocketHandOff
import MidiDaemon.ForeignDescriptors
import MidiDaemon.BluetoothSessions
import MidiDaemon.Disconnects
import MidiDaemon.FailedAccepts
import MidiDaemon.Shutdown
import MidiDaemon.Commands
import MidiDaemon.CommandDispatch
import MidiDaemon.CommandStream
import MidiDaemon.CommandEffects
import MidiDaemon.CommandBuffer
import MidiDaemon.CommandServer
import MidiDaemon.ReadyDescriptors
import MidiDaemon.CommandClients
import MidiDaemon.CommandSessions
import MidiDaemon.CommandInterleaving
import MidiDaemon.CommandPasses
import MidiDaemon.SerialReader
import MidiDaemon.SerialTerminal
import MidiDaemon.FrameTermination
import MidiDaemon.SerialHistory
import MidiDaemon.PortParsing
import MidiDaemon.PortSplitting
import MidiDaemon.PortListing
import MidiDaemon.SequencerSetup
import MidiDaemon.CommandLifecycle
import MidiDaemon.ReaderSessions
import MidiDaemon.MainOptions
import MidiDaemon.PortOwnership
import MidiDaemon.PortAgreement
import MidiDaemon.StartGate
import MidiDaemon.CommandLine
import MidiDaemon.MainLifecycle
