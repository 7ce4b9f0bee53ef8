import OpenvasSmb.Theorems.Asn1Elements
import OpenvasSmb.Theorems.SpnegoPointers
import OpenvasSmb.Theorems.WmiQuery
import OpenvasSmb.Theorems.DcerpcBindAuth
import OpenvasSmb.Theorems.WbemPull
import OpenvasSmb.Theorems.DcerpcFragments
import OpenvasSmb.Theorems.DcerpcReceive
import OpenvasSmb.Theorems.DcerpcInterleaving
import OpenvasSmb.Theorems.Asn1Tree
import OpenvasSmb.Theorems.SpnegoCodec
import OpenvasSmb.Theorems.CharsetUtf8
import OpenvasSmb.Ntlmssp.Parse
import OpenvasSmb.Theorems.NtlmsspLink
import OpenvasSmb.Theorems.PacketStream
import OpenvasSmb.Theorems.PacketTimers
import OpenvasSmb.Theorems.DcomPipe
import OpenvasSmb.Theorems.DcomExporters
import OpenvasSmb.Theorems.SmbReceive
import OpenvasSmb.Theorems.SmbTransLumps
import OpenvasSmb.Theorems.SmbSigning
import OpenvasSmb.Theorems.SddlRoundTrip
import OpenvasSmb.Theorems.FileRights
import OpenvasSmb.Theorems.SmbCompletion
import OpenvasSmb.Theorems.SmbBlobString
import OpenvasSmb.Theorems.GensecMechs
import OpenvasSmb.Theorems.WbemCursor
import OpenvasSmb.Theorems.WmiBinary
import OpenvasSmb.Theorems.SmartEnum
import OpenvasSmb.Theorems.RsopConnect
import OpenvasSmb.Theorems.WbemPut
import OpenvasSmb.Theorems.QualifierNames
import OpenvasSmb.Theorems.BindingStrings
import OpenvasSmb.Theorems.ServerCredentials
import OpenvasSmb.Theorems.CompositeContinue
import OpenvasSmb.Theorems.BindingSearch
import OpenvasSmb.Theorems.NdrPrimitives
import OpenvasSmb.Theorems.SidText
import OpenvasSmb.Theorems.DcomActivate
import OpenvasSmb.Theorems.SmbTransportDead
import OpenvasSmb.Wmi.Arguments
import OpenvasSmb.Crypto.Arcfour
import OpenvasSmb.Credentials.Identity
import OpenvasSmb.Nbt.Names
